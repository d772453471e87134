import BandwidthLimiter.Foundation.Fuel
import BandwidthLimiter.Tree.Neighbour

namespace BandwidthLimiter
open Foundation

variable {K V : Type}

section Mono

variable {fuel more : Nat} {links : Links Nat} {tree : RedBlackTreeStruct K V} {compare : K → K → Int}

theorem queryLoop_mono {q : K} {x : Pointer Nat} {answer : Option (Pointer Nat)}
    (done : queryLoop compare tree q fuel x = some answer) (enough : fuel ≤ more) :
    queryLoop compare tree q more x = some answer := by
  induction fuel generalizing x more with
  | zero => cases done
  | succ fuel ih =>
      obtain ⟨more, rfl, spare⟩ := exists_fuel enough
      rw [queryLoop] at done ⊢
      split
      · rename_i missing
        rwa [if_pos missing] at done
      · rename_i present
        rw [if_neg present] at done
        obtain ⟨xKey, held, rest⟩ := Option.bind_eq_some_iff.mp done
        simp only [held, Option.bind_eq_bind, Option.bind_some]
        split at rest
        · rename_i equal
          rwa [if_pos equal]
        · rename_i unequal
          rw [if_neg unequal]
          split at rest <;> rename_i later
          · rw [if_pos later]
            exact ih rest spare
          · rw [if_neg later]
            exact ih rest spare

theorem insertDescent_mono {zKey : K} {y x last : Pointer Nat}
    (done : insertDescent compare tree zKey fuel y x = some last) (enough : fuel ≤ more) :
    insertDescent compare tree zKey more y x = some last := by
  induction fuel generalizing y x more with
  | zero => cases done
  | succ fuel ih =>
      obtain ⟨more, rfl, spare⟩ := exists_fuel enough
      rw [insertDescent] at done ⊢
      split
      · rename_i missing
        rwa [if_pos missing] at done
      · rename_i present
        rw [if_neg present] at done
        obtain ⟨xKey, held, rest⟩ := Option.bind_eq_some_iff.mp done
        simp only [held, Option.bind_eq_bind, Option.bind_some]
        split at rest <;> rename_i later
        · rw [if_pos later]
          exact ih rest spare
        · rw [if_neg later]
          exact ih rest spare

theorem insertFixUp_mono {x : Pointer Nat} {last : Links Nat}
    (done : insertFixUp fuel links x = some last) (enough : fuel ≤ more) :
    insertFixUp more links x = some last := by
  induction fuel generalizing links x more with
  | zero => cases done
  | succ fuel ih =>
      obtain ⟨more, rfl, spare⟩ := exists_fuel enough
      rw [insertFixUp] at done ⊢
      split at done <;> rename_i red
      · rw [if_pos red]
        exact ih done spare
      · rwa [if_neg red]

theorem outermost_mono {side : Side} {y last : Pointer Nat}
    (done : outermost side links fuel y = some last) (enough : fuel ≤ more) :
    outermost side links more y = some last := by
  induction fuel generalizing y more with
  | zero => cases done
  | succ fuel ih =>
      obtain ⟨more, rfl, spare⟩ := exists_fuel enough
      rw [outermost] at done ⊢
      split at done <;> rename_i further
      · rw [if_pos further]
        exact ih done spare
      · rwa [if_neg further]

theorem deleteFixUpLoop_mono {top x : Pointer Nat} {last : Links Nat}
    (done : deleteFixUpLoop top fuel links x = some last) (enough : fuel ≤ more) :
    deleteFixUpLoop top more links x = some last := by
  induction fuel generalizing links x more with
  | zero => cases done
  | succ fuel ih =>
      obtain ⟨more, rfl, spare⟩ := exists_fuel enough
      rw [deleteFixUpLoop] at done ⊢
      split at done <;> rename_i black
      · rw [if_pos black]
        exact ih done spare
      · rwa [if_neg black]

theorem deleteRepair_mono {y x : Pointer Nat} {last : Links Nat}
    (done : deleteRepair fuel links y x = some last) (enough : fuel ≤ more) :
    deleteRepair more links y x = some last := by
  unfold deleteRepair at done ⊢
  split at done <;> rename_i black
  · rw [if_pos black]
    exact deleteFixUpLoop_mono done enough
  · rwa [if_neg black]

end Mono

section Insertion

variable {comparison : Comparison K} {tree : RedBlackTreeStruct K V} {shape : ColorTree Nat}
  {bound : Nat}

/-- The descent of an insertion has as many rounds as the tree has levels, and one. -/
theorem treeInsertHelpWithin_eq {x : Nat} {zKey : K} (stored : Stored tree.toLinks [] shape)
    (fresh : x ∉ shape.inorder) (keys : ∀ a ∈ shape.inorder, (tree.key (.node a)).isSome)
    (sorted : comparison.Sorted (fun a => tree.key (.node a)) shape.inorder)
    (keyX : tree.key (.node x) = some zKey) (unbounded : shape.height < tree.loopBound)
    (enough : shape.height < bound) :
    treeInsertHelpWithin comparison.compare bound tree (.node x) =
      treeInsertHelp comparison.compare tree (.node x) := by
  let bare : RedBlackTreeStruct K V := { tree with
    toLinks := (tree.toLinks.setChild .right (.node x) .nil).setChild .left (.node x) .nil }
  have bareStored : Stored bare.toLinks [] shape := by
    refine stored.congr fresh nofun ?_ (fun _ _ => rfl) (fun _ _ => rfl)
    intro s p different
    simp [bare, different]
  have split : Splits comparison bare zKey [] := ⟨nofun, nofun, nofun⟩
  obtain ⟨last, run, -⟩ := insertDescent_spec bareStored split keys sorted enough
  obtain ⟨other, whole, -⟩ := insertDescent_spec bareStored split keys sorted unbounded
  have same := fuel_agree (fun fuel => insertDescent comparison.compare bare zKey fuel .root shape.top)
    insertDescent_mono run whole
  rw [← bareStored.holds.1] at same
  simp only [treeInsertHelp, treeInsertHelpWithin, keyX, Option.bind_eq_bind, Option.bind_some]
  rw [same]

/-- The loops of an insertion have as many rounds as the tree has levels, and one. -/
theorem rbTreeInsertWithin_eq (wellFormed : WellFormed comparison tree shape)
    (enough : shape.height < bound) (key : K) (info : V) :
    rbTreeInsertWithin comparison.compare bound tree key info =
      rbTreeInsert comparison.compare tree key info := by
  have absent : tree.fresh ∉ shape.inorder := fun mem =>
    Nat.lt_irrefl _ (wellFormed.bounded _ mem)
  have keysKept (a : Nat) (mem : a ∈ shape.inorder) :
      (tree.allocate key info).key (.node a) = tree.key (.node a) := by
    have different : a ≠ tree.fresh := fun same => absent (same ▸ mem)
    simp [RedBlackTreeStruct.allocate, different]
  have stored : Stored (tree.allocate key info).toLinks [] shape :=
    wellFormed.stored.congr absent List.not_mem_nil (fun _ _ _ => rfl) (fun _ _ => rfl) (fun p different => by
      simp [RedBlackTreeStruct.allocate, different])
  have sorted : comparison.Sorted (fun a => (tree.allocate key info).key (.node a))
      shape.inorder := wellFormed.sorted.congr keysKept
  have keys (a : Nat) (mem : a ∈ shape.inorder) : ((tree.allocate key info).key (.node a)).isSome := by
    rw [keysKept a mem]
    exact (wellFormed.keys a).mpr mem
  have keyX : (tree.allocate key info).key (.node tree.fresh) = some key := by
    simp [RedBlackTreeStruct.allocate]
  have unbounded : shape.height < (tree.allocate key info).loopBound :=
    Nat.lt_succ_of_lt wellFormed.height_lt
  have placedWithin := treeInsertHelpWithin_eq stored absent keys sorted keyX unbounded enough
  obtain ⟨links, last, run, placed, plugged, -⟩ :=
    treeInsertHelp_spec stored absent keys sorted keyX unbounded
  obtain ⟨count, settled⟩ := (Path.redBlack_plug last .nil).mp (plugged ▸ wellFormed.redBlack)
  obtain rfl : count = 0 := settled.balanced
  have climbing : Climbing (links.setRed (.node tree.fresh) true) tree.fresh last.length _ :=
    ⟨last, .left, .nil, .nil, 0, placed.recolor true, settled.fits,
      (ColorTree.balanced_join_red ..).mpr ⟨rfl, rfl, rfl, rfl⟩, rfl, rfl⟩
  have short : last.length ≤ shape.height := plugged ▸ last.length_add_height_le .nil
  obtain ⟨fixed, -, loop, -⟩ := insertFixUp_spec climbing (Nat.lt_of_le_of_lt short enough)
  obtain ⟨other, -, whole, -⟩ := insertFixUp_spec climbing (Nat.lt_of_le_of_lt short unbounded)
  have same := fuel_agree (fun fuel => insertFixUp fuel (links.setRed (.node tree.fresh) true)
    (.node tree.fresh)) insertFixUp_mono loop whole
  rw [treeInsertHelp] at run placedWithin
  simp only [rbTreeInsert, rbTreeInsertWithin, placedWithin, run, Option.bind_eq_bind, Option.bind_some]
  rw [same]

end Insertion

section Deletion

variable {comparison : Comparison K} {tree : RedBlackTreeStruct K V} {shape : ColorTree Nat}
  {links : Links Nat} {path : Path Nat} {bound more : Nat}

/-- The repair of a deletion has as many rounds as there are levels above the gap, and one. -/
theorem deleteRepair_agree {side : Side} {red : Bool} {y : Nat} {only : ColorTree Nat}
    (stored : Stored links path (.join side red y only .nil))
    (redBlack : (path.plug (.join side red y only .nil)).RedBlack) (enough : path.length < bound)
    (again : path.length < more) :
    deleteRepair bound (spliceOut links (.node y) only.top) (.node y) only.top =
      deleteRepair more (spliceOut links (.node y) only.top) (.node y) only.top := by
  obtain ⟨next, shape, run, -⟩ := spliceOut_repaired stored redBlack enough
  obtain ⟨other, final, whole, -⟩ := spliceOut_repaired stored redBlack again
  exact fuel_agree (fun fuel => deleteRepair fuel _ (.node y) only.top) deleteRepair_mono run whole

/-- A path to a node is shorter than the tree. -/
theorem length_lt_height {red : Bool} {x : Nat} {left right : ColorTree Nat}
    (plugged : path.plug (.node red left x right) = shape) : path.length < shape.height := by
  have whole := path.length_add_height_le (.node red left x right)
  rw [plugged, ColorTree.height] at whole
  omega

theorem rbDeleteWithin_outer {side : Side} {red : Bool} {z : Nat} {only : ColorTree Nat}
    (wellFormed : WellFormed comparison tree shape)
    (plugged : path.plug (.join side red z only .nil) = shape) (enough : path.length < bound) :
    rbDeleteWithin bound tree (.node z) = rbDelete tree (.node z) := by
  subst plugged
  have stored := wellFormed.stored.atFocus
  have near := stored.near_eq
  have far := stored.far_eq
  have same := deleteRepair_agree stored wellFormed.redBlack enough (wellFormed.path_lt rfl)
  have leaf : tree.child .left (.node z) = .nil ∨ tree.child .right (.node z) = .nil := by
    cases side with
    | left => exact .inr far
    | right => exact .inl far
  have x : (if tree.child .left (.node z) = .nil then tree.child .right (.node z)
      else tree.child .left (.node z)) = only.top := by
    cases side with
    | left =>
        simp only [Side.flip] at far
        rw [near, far]
        split <;> simp_all
    | right =>
        simp only [Side.flip] at far
        rw [near, far]
        simp
  simp only [rbDeleteWithin, rbDelete, leaf, if_true, Option.bind_eq_bind, Option.bind_some, x, ne_eq,
    not_true_eq_false, if_false, same]

/-- The search for the successor stays below the node. -/
theorem treeSuccessor_agree {red : Bool} {z : Nat} {left right : ColorTree Nat}
    (stored : Stored links path (.node red left z right)) (proper : right ≠ .nil)
    (enough : right.height < bound) (again : right.height < more) :
    treeSuccessor bound links (.node z) = treeSuccessor more links (.node z) := by
  have link : links.child .right (.node z) = right.top := stored.holds.2.2.2.2.1
  have below : Stored links (⟨.right, red, z, left⟩ :: path) right := (Stored.focus ..).mpr stored
  cases right with
  | nil => exact absurd rfl proper
  | node rightRed lower x upper =>
      simp only [ColorTree.height] at enough again
      obtain ⟨last, color, y, other, run, -⟩ :=
        outermost_spec below (show lower.height < bound by omega)
      obtain ⟨last', color', y', other', whole, -⟩ :=
        outermost_spec below (show lower.height < more by omega)
      have same := fuel_agree (fun fuel => outermost .left links fuel (.node x)) outermost_mono run whole
      rw [treeSuccessor, treeSuccessor, link, ColorTree.top_node]
      simp [same]

theorem rbDeleteWithin_inner {red : Bool} {z : Nat} {left right : ColorTree Nat}
    (wellFormed : WellFormed comparison tree shape)
    (plugged : path.plug (.node red left z right) = shape) (leftProper : left ≠ .nil)
    (rightProper : right ≠ .nil) (enough : shape.height < bound) :
    rbDeleteWithin bound tree (.node z) = rbDelete tree (.node z) := by
  subst plugged
  have stored := wellFormed.stored.atFocus
  obtain ⟨-, -, leftLink, rightLink, -, -⟩ := stored.holds.2
  have levels := path.length_add_height_le (.node red left z right)
  rw [ColorTree.height] at levels
  have lower : right.height < bound := by omega
  have shallow : right.height < tree.loopBound := by
    have := wellFormed.height_lt
    omega
  have found := treeSuccessor_agree stored rightProper lower shallow
  obtain ⟨last, color, y, other, successor, plugged, -⟩ :=
    treeSuccessor_below wellFormed rfl rightProper
  have turned : last.plug (.join .right color y other .nil) = path.plug (.node red left z right) :=
    plugged
  have lastStored : Stored tree.toLinks last (.join .right color y other .nil) :=
    Stored.atFocus (turned ▸ wellFormed.stored)
  have same := deleteRepair_agree lastStored (turned ▸ wellFormed.redBlack)
    ((length_lt_height plugged).trans enough) (wellFormed.path_lt plugged)
  have inner : ¬(tree.child .left (.node z) = .nil ∨ tree.child .right (.node z) = .nil) := by
    rw [leftLink, rightLink, ColorTree.top_eq_nil, ColorTree.top_eq_nil]
    tauto
  have leftY : tree.child .left (.node y) = .nil := lastStored.far_eq
  have rightY : tree.child .right (.node y) = other.top := lastStored.near_eq
  simp only [rbDeleteWithin, rbDelete, inner, if_false, found, successor, Option.bind_eq_bind,
    Option.bind_some, leftY, rightY, if_true, same]

/-- The loops of a deletion have as many rounds as the tree has levels, and one. -/
theorem rbDeleteWithin_eq (wellFormed : WellFormed comparison tree shape)
    (enough : shape.height < bound) {z : Nat} (mem : z ∈ shape.inorder) :
    rbDeleteWithin bound tree (.node z) = rbDelete tree (.node z) := by
  obtain ⟨path, red, left, right, plugged⟩ := Path.exists_plug [] mem
  simp only [Path.plug] at plugged
  have short := (length_lt_height plugged).trans enough
  by_cases leftProper : left = .nil
  · subst leftProper
    exact rbDeleteWithin_outer wellFormed
      (show path.plug (.join .right red z right .nil) = shape from plugged) short
  · by_cases rightProper : right = .nil
    · subst rightProper
      exact rbDeleteWithin_outer wellFormed
        (show path.plug (.join .left red z left .nil) = shape from plugged) short
    · exact rbDeleteWithin_inner wellFormed plugged leftProper rightProper enough

end Deletion

section Logarithmic

variable {comparison : Comparison K} {tree : RedBlackTreeStruct K V}

/-- The search has as many rounds as the tree has levels, and one. -/
theorem rbExactQueryWithin_eq {shape : ColorTree Nat} {bound : Nat}
    (wellFormed : WellFormed comparison tree shape) (enough : shape.height < bound) (q : K) :
    rbExactQueryWithin comparison.compare bound tree q =
      rbExactQuery comparison.compare (some tree) q := by
  have laid := wellFormed.stored.holds.2
  have keys (a : Nat) (mem : a ∈ shape.inorder) := (wellFormed.keys a).mpr mem
  obtain ⟨answer, run, -⟩ := queryLoop_spec laid keys wellFormed.sorted enough
  obtain ⟨other, whole, -⟩ := queryLoop_spec laid keys wellFormed.sorted wellFormed.height_lt
  simp only [rbExactQuery, rbExactQueryWithin]
  rw [wellFormed.top_eq]
  exact fuel_agree (fun fuel => queryLoop comparison.compare tree q fuel shape.top) queryLoop_mono run
    whole

/-- Every operation on a tree that a client built has logarithmic cost: no loop of a search, an
insertion or a deletion, nor of the repair of its colors, has more than `2 * log n + 1` rounds. -/
theorem treeRun_cost {events : List (TreeEvent K V)}
    (run : Run (TreeStep comparison.compare) (rbTreeCreate K V) events tree) :
    ∃ nodes, rbTreePrint tree = some nodes ∧
      ∀ bound, 2 * Nat.log 2 (nodes.length + 1) < bound →
        (∀ q, rbExactQueryWithin comparison.compare bound tree q =
          rbExactQuery comparison.compare (some tree) q) ∧
        (∀ key info, rbTreeInsertWithin comparison.compare bound tree key info =
          rbTreeInsert comparison.compare tree key info) ∧
        ∀ z, InTree tree.toLinks z → rbDeleteWithin bound tree (.node z) = rbDelete tree (.node z) := by
  obtain ⟨shape, wellFormed⟩ := run.invariant (fun tree => ∃ shape, WellFormed comparison tree shape)
    ⟨.nil, rbTreeCreate_wellFormed comparison⟩ fun _ _ _ kept taken => taken.wellFormed kept
  refine ⟨_, rbTreePrint_spec wellFormed, fun bound enough => ?_⟩
  have levels : shape.height < bound := by
    rw [List.length_map] at enough
    exact Nat.lt_of_le_of_lt wellFormed.redBlack.height_le_log enough
  exact ⟨rbExactQueryWithin_eq wellFormed levels, rbTreeInsertWithin_eq wellFormed levels,
    fun z inside => rbDeleteWithin_eq wellFormed levels ((wellFormed.stored.inTree_iff z).mp inside)⟩

/-- Three rounds are enough for a tree with two nodes. -/
theorem equalKeys_cost : (∀ q, rbExactQueryWithin intComparison.compare 3 equalKeys q =
      rbExactQuery intComparison.compare (some equalKeys) q) ∧
    ∀ key info, rbTreeInsertWithin intComparison.compare 3 equalKeys key info =
      rbTreeInsert intComparison.compare equalKeys key info := by
  obtain ⟨nodes, shown, within⟩ := treeRun_cost equalKeys_run
  have printed : rbTreePrint equalKeys = some [.node 0, .node 1] := rfl
  obtain rfl := Option.some.inj (shown.symm.trans printed)
  obtain ⟨search, insertion, -⟩ := within 3 (by decide)
  exact ⟨search, insertion⟩

end Logarithmic

end BandwidthLimiter
