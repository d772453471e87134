import Mathlib.Data.List.Perm.Subperm
import BandwidthLimiter.Foundation.Comparison
import BandwidthLimiter.Tree.Insert

namespace BandwidthLimiter
open Foundation

variable {K V : Type}

/-- A well-formed tree stores a sorted red-black shape; exactly its nodes hold keys. -/
structure WellFormed (comparison : Comparison K) (tree : RedBlackTreeStruct K V)
    (shape : ColorTree Nat) : Prop where
  stored : Stored tree.toLinks [] shape
  redBlack : shape.RedBlack
  bounded : ∀ a ∈ shape.inorder, a < tree.fresh
  keys : ∀ a, (tree.key (.node a)).isSome ↔ a ∈ shape.inorder
  infos : ∀ a, (tree.info (.node a)).isSome ↔ a ∈ shape.inorder
  sorted : comparison.Sorted (fun a => tree.key (.node a)) shape.inorder

/-- The created tree is well formed. -/
theorem rbTreeCreate_wellFormed (comparison : Comparison K) :
    WellFormed comparison (rbTreeCreate K V) .nil where
  stored := ⟨⟨rfl, trivial⟩, List.nodup_nil, fun _ => rfl, rfl, rfl, rfl, rfl⟩
  redBlack := ⟨rfl, 0, rfl⟩
  bounded := by simp [ColorTree.inorder]
  keys := by simp [ColorTree.inorder, rbTreeCreate]
  infos := by simp [ColorTree.inorder, rbTreeCreate]
  sorted := List.Pairwise.nil

namespace WellFormed

variable {comparison : Comparison K} {tree : RedBlackTreeStruct K V} {shape : ColorTree Nat}

theorem nodup (wellFormed : WellFormed comparison tree shape) : shape.inorder.Nodup :=
  wellFormed.stored.nodup

/-- The number of nodes is below the loop bound. -/
theorem size_lt (wellFormed : WellFormed comparison tree shape) : shape.size < tree.loopBound := by
  have inside : shape.inorder ⊆ List.range tree.fresh := fun a mem =>
    List.mem_range.mpr (wellFormed.bounded a mem)
  have count := (wellFormed.nodup.subperm inside).length_le
  rw [List.length_range] at count
  exact Nat.lt_succ_of_le count

theorem height_lt (wellFormed : WellFormed comparison tree shape) :
    shape.height < tree.loopBound :=
  Nat.lt_of_le_of_lt shape.height_le_size wellFormed.size_lt

theorem path_lt (wellFormed : WellFormed comparison tree shape) {path : Path Nat}
    {focus : ColorTree Nat} (plugged : path.plug focus = shape) : path.length < tree.loopBound := by
  have short := path.length_le_size focus
  rw [plugged] at short
  exact Nat.lt_of_le_of_lt short wellFormed.size_lt

theorem top_eq (wellFormed : WellFormed comparison tree shape) :
    tree.child .left .root = shape.top := wellFormed.stored.holds.1

end WellFormed

/-- Fields outside the stored tree do not matter. -/
theorem Stored.congr {links next : Links Nat} {path : Path Nat} {shape : ColorTree Nat} {x : Nat}
    (stored : Stored links path shape) (outside : x ∉ shape.inorder) (beyond : x ∉ path.addresses)
    (child : ∀ s p, p ≠ .node x → next.child s p = links.child s p)
    (parents : ∀ p, p ≠ .node x → next.parent p = links.parent p)
    (red : ∀ p, p ≠ .node x → next.red p = links.red p) : Stored next path shape := by
  have inShape (a : Nat) (mem : a ∈ shape.inorder) : Pointer.node a ≠ .node x := by
    rintro ⟨⟩
    exact outside mem
  have inPath (a : Nat) (mem : a ∈ path.addresses) : Pointer.node a ≠ .node x := by
    rintro ⟨⟩
    exact beyond mem
  have kept := stored.sentinels
  refine ⟨⟨?_, ?_⟩, stored.distinct, ?_⟩
  · refine stored.holds.1.rehole (List.nodup_append.mp stored.distinct).2.1 ?_ ?_
      (fun a mem => parents _ (inPath a mem)) (fun a mem => red _ (inPath a mem))
    · exact fun s p owns _ => child s p (owns.ne_node beyond)
    · rw [child _ _ (path.owns_parent.ne_node beyond), stored.holds.1.slot]
  · exact stored.holds.2.congr (fun a mem s => child s _ (inShape a mem))
      (fun a mem => parents _ (inShape a mem)) (fun a mem => red _ (inShape a mem))
  · exact ⟨fun s => (child s .nil nofun).trans (kept.nilChild s),
      (red .nil nofun).trans kept.nilBlack, (child .right .root nofun).trans kept.rootRight,
      (red .root nofun).trans kept.rootBlack, (parents .root nofun).trans kept.rootParent⟩

/-- A new node hangs below the focus link without touching the stored tree. -/
theorem Stored.attach {links : Links Nat} {path : Path Nat} {x : Nat}
    (stored : Stored links path .nil) (fresh : x ∉ path.addresses)
    (bare : ∀ side, links.child side (.node x) = .nil) :
    Stored ((links.setParent (.node x) path.parent).setChild path.side path.parent (.node x)) path
      (.join .left (links.red (.node x)) x .nil .nil) := by
  have above := Path.parent_ne_node fresh
  have kept := stored.sentinels
  refine ⟨⟨?_, (laid_join ..).mpr ⟨?_, rfl, ?_, ?_, trivial, trivial⟩⟩, ?_, ?_⟩
  · refine stored.holds.1.rehole (List.nodup_append.mp stored.distinct).2.1 ?_ (by simp) ?_
      (fun _ _ => rfl)
    · intro s p _ elsewhere
      simp [elsewhere]
    · intro a mem
      have different : a ≠ x := fun same => fresh (same ▸ mem)
      simp [different]
  · simp
  · simp [Ne.symm above, bare]
  · simp [Ne.symm above, bare]
  · refine distinct_join.mpr ⟨nofun, nofun, fresh, nofun, nofun, nofun, List.nodup_nil,
      List.nodup_nil, (List.nodup_append.mp stored.distinct).2.1⟩
  · refine ⟨fun s => ?_, kept.nilBlack, ?_, kept.rootBlack, by simp [kept.rootParent]⟩
    · simp [Ne.symm (Path.parent_ne_nil path), kept.nilChild]
    · simp [Path.not_rootRight path, kept.rootRight]

section Insert

variable {comparison : Comparison K} {tree : RedBlackTreeStruct K V} {zKey : K}

/-- Everything before the focus is at most the new key, and everything after it is later. -/
structure Splits (comparison : Comparison K) (tree : RedBlackTreeStruct K V) (zKey : K)
    (path : Path Nat) : Prop where
  before : ∀ a ∈ path.before, ∀ k ∈ tree.key (.node a), comparison.compare k zKey ≠ 1
  after : ∀ a ∈ path.after, ∀ k ∈ tree.key (.node a), comparison.compare k zKey = 1
  last : ∀ frame ∈ path.head?, ∃ k, tree.key (.node frame.address) = some k ∧
    (frame.side = .left ↔ comparison.compare k zKey = 1)

section Descend

variable {path : Path Nat} {red : Bool} {x : Nat} {k : K} {left right : ColorTree Nat}

/-- A node with a later key moves to the nodes after the place, together with its right subtree. -/
theorem Splits.turnLeft (splits : Splits comparison tree zKey path)
    (sorted : comparison.Sorted (fun a => tree.key (.node a))
      (ColorTree.node red left x right).inorder)
    (keyX : tree.key (.node x) = some k) (later : comparison.compare k zKey = 1) :
    Splits comparison tree zKey (⟨.left, red, x, right⟩ :: path) := by
  simp only [Comparison.Sorted, ColorTree.inorder, List.pairwise_append, List.pairwise_cons] at sorted
  obtain ⟨-, ⟨upper, -⟩, -⟩ := sorted
  refine ⟨splits.before, ?_, ?_⟩
  · intro a mem ka isA
    simp only [Path.after, List.cons_append, List.mem_cons, List.mem_append] at mem
    rcases mem with rfl | mem | mem
    · obtain rfl : k = ka := by simpa [keyX] using isA
      exact later
    · exact comparison.after_of_after later (upper a mem k keyX ka isA)
    · exact splits.after a mem ka isA
  · rintro frame ⟨⟩
    exact ⟨k, keyX, by simp [later]⟩

/-- Any other node moves to the nodes before the place, together with its left subtree. -/
theorem Splits.turnRight (splits : Splits comparison tree zKey path)
    (sorted : comparison.Sorted (fun a => tree.key (.node a))
      (ColorTree.node red left x right).inorder)
    (keyX : tree.key (.node x) = some k) (earlier : comparison.compare k zKey ≠ 1) :
    Splits comparison tree zKey (⟨.right, red, x, left⟩ :: path) := by
  simp only [Comparison.Sorted, ColorTree.inorder, List.pairwise_append, List.mem_cons] at sorted
  obtain ⟨-, -, across⟩ := sorted
  refine ⟨?_, splits.after, ?_⟩
  · intro a mem ka isA
    simp only [Path.before, List.mem_append, List.mem_singleton] at mem
    rcases mem with mem | mem | rfl
    · exact splits.before a mem ka isA
    · exact comparison.le_trans (across a mem x (.inl rfl) ka isA k keyX) earlier
    · obtain rfl : k = ka := by simpa [keyX] using isA
      exact earlier
  · rintro frame ⟨⟩
    exact ⟨k, keyX, by simp [earlier]⟩

end Descend

/-- The descent ends at the empty place between the smaller and the greater keys. -/
theorem insertDescent_spec {fuel : Nat} {path : Path Nat} {focus : ColorTree Nat}
    (stored : Stored tree.toLinks path focus) (splits : Splits comparison tree zKey path)
    (keys : ∀ a ∈ focus.inorder, (tree.key (.node a)).isSome)
    (sorted : comparison.Sorted (fun a => tree.key (.node a)) focus.inorder)
    (enough : focus.height < fuel) :
    ∃ last, insertDescent comparison.compare tree zKey fuel path.parent focus.top =
        some last.parent ∧ last.plug .nil = path.plug focus ∧ Splits comparison tree zKey last := by
  induction focus generalizing path fuel with
  | nil =>
      obtain ⟨fuel, rfl, -⟩ := exists_fuel enough
      exact ⟨path, by simp [insertDescent], rfl, splits⟩
  | node red left address right leftHyp rightHyp =>
      obtain ⟨fuel, rfl, spare⟩ := exists_fuel enough
      simp only [ColorTree.height] at spare
      simp only [ColorTree.inorder, List.mem_append, List.mem_cons] at keys
      obtain ⟨k, keyNode⟩ := Option.isSome_iff_exists.mp (keys address (.inr (.inl rfl)))
      have parts := List.pairwise_append.mp sorted
      have joined : Stored tree.toLinks path (.join .left red address left right) := stored
      have turned : Stored tree.toLinks path (.join .right red address right left) := stored
      by_cases test : 1 = comparison.compare k zKey
      · obtain ⟨last, run, plugged, split⟩ := leftHyp joined.focusNear
          (splits.turnLeft sorted keyNode test.symm) (fun a mem => keys a (.inl mem)) parts.1
          (show left.height < fuel by omega)
        refine ⟨last, ?_, plugged, split⟩
        rw [← run]
        simp [insertDescent, ColorTree.top, keyNode, ← test, joined.near_eq, Path.parent]
      · obtain ⟨last, run, plugged, split⟩ := rightHyp turned.focusNear
          (splits.turnRight sorted keyNode (Ne.symm test)) (fun a mem => keys a (.inr (.inr mem)))
          (List.pairwise_cons.mp parts.2.1).2 (show right.height < fuel by omega)
        refine ⟨last, ?_, plugged, split⟩
        rw [← run]
        simp [insertDescent, ColorTree.top, keyNode, test, turned.near_eq, Path.parent]

/-- The new node hangs on the side of the last frame, as the source tests it. -/
theorem treeInsertHelp_eq {x : Nat} {last : Path Nat} (keyX : tree.key (.node x) = some zKey)
    (split : Splits comparison tree zKey last)
    (descent : insertDescent comparison.compare { tree with
      toLinks := (tree.toLinks.setChild .right (.node x) .nil).setChild .left (.node x) .nil } zKey
      tree.loopBound .root (tree.child .left .root) = some last.parent) :
    treeInsertHelp comparison.compare tree (.node x) = some { tree with
      toLinks := (((tree.toLinks.setChild .right (.node x) .nil).setChild .left (.node x)
        .nil).setParent (.node x) last.parent).setChild last.side last.parent (.node x) } := by
  have started : ((tree.toLinks.setChild .right (.node x) .nil).setChild .left (.node x)
      .nil).child .left .root = tree.child .left .root := by simp
  simp only [treeInsertHelp, treeInsertHelpWithin, keyX, Option.bind_eq_bind, Option.bind_some, started,
    RedBlackTreeStruct.loopBound] at descent ⊢
  rw [descent, Option.bind_some]
  cases last with
  | nil => rfl
  | cons frame rest =>
      obtain ⟨k, keyFrame, test⟩ := split.last frame rfl
      have keyAbove : tree.key (.node frame.address) = some k := keyFrame
      by_cases later : comparison.compare k zKey = 1
      · simp [Path.parent, Path.side, keyAbove, later, test.mpr later]
      · have side : frame.side = .right := by
          cases hangs : frame.side with
          | left => exact absurd (test.mp hangs) later
          | right => rfl
        simp [Path.parent, Path.side, keyAbove, Ne.symm later, side]

/-- The new node takes the empty place between the smaller and the greater keys. -/
theorem treeInsertHelp_spec {x : Nat} {shape : ColorTree Nat}
    (stored : Stored tree.toLinks [] shape) (fresh : x ∉ shape.inorder)
    (keys : ∀ a ∈ shape.inorder, (tree.key (.node a)).isSome)
    (sorted : comparison.Sorted (fun a => tree.key (.node a)) shape.inorder)
    (keyX : tree.key (.node x) = some zKey) (enough : shape.height < tree.loopBound) :
    ∃ links last, treeInsertHelp comparison.compare tree (.node x) =
        some { tree with toLinks := links } ∧
      Stored links last (.join .left (tree.red (.node x)) x .nil .nil) ∧
      last.plug .nil = shape ∧ Splits comparison tree zKey last := by
  let bare : RedBlackTreeStruct K V := { tree with
    toLinks := (tree.toLinks.setChild .right (.node x) .nil).setChild .left (.node x) .nil }
  have bareStored : Stored bare.toLinks [] shape := by
    refine stored.congr fresh nofun ?_ (fun _ _ => rfl) (fun _ _ => rfl)
    intro s p different
    simp [bare, different]
  have split : Splits comparison bare zKey [] := ⟨nofun, nofun, nofun⟩
  obtain ⟨last, run, plugged, split⟩ := insertDescent_spec bareStored split keys sorted enough
  have outside : x ∉ last.addresses := by
    have perm := last.plug_perm .nil
    rw [plugged] at perm
    exact fun mem => fresh (perm.mem_iff.mpr (List.mem_append_right _ mem))
  have focused : Stored bare.toLinks last .nil := by
    apply Stored.atFocus
    rw [plugged]
    exact bareStored
  have attached := focused.attach outside (fun side => by cases side <;> simp [bare])
  have kept : Splits comparison tree zKey last := ⟨split.before, split.after, split.last⟩
  have top : tree.child .left .root = shape.top := stored.holds.1
  exact ⟨_, last, treeInsertHelp_eq keyX kept (top ▸ run), attached, plugged, kept⟩

/-- The effect of an insertion on the nodes in order and on their contents. -/
structure Inserted (tree next : RedBlackTreeStruct K V) (shape nextShape : ColorTree Nat) (key : K)
    (info : V) : Prop where
  order : ∃ first second, shape.inorder = first ++ second ∧
    nextShape.inorder = first ++ tree.fresh :: second
  keys : ∀ p, next.key p = if p = .node tree.fresh then some key else tree.key p
  infos : ∀ p, next.info p = if p = .node tree.fresh then some info else tree.info p
  visited : ∀ p, next.visited p = if p = .node tree.fresh then false else tree.visited p
  fresh : next.fresh = tree.fresh + 1

/-- An insertion that repairs the links and keeps the order of the keys keeps the tree well formed. -/
theorem WellFormed.inserted {next : RedBlackTreeStruct K V} {shape nextShape : ColorTree Nat}
    {key : K} {info : V} (wellFormed : WellFormed comparison tree shape)
    (inserted : Inserted tree next shape nextShape key info) (stored : Stored next.toLinks [] nextShape)
    (redBlack : nextShape.RedBlack)
    (sorted : comparison.Sorted (fun a => next.key (.node a)) nextShape.inorder) :
    WellFormed comparison next nextShape := by
  obtain ⟨first, second, before, after⟩ := inserted.order
  have mem_iff (a : Nat) : a ∈ nextShape.inorder ↔ a = tree.fresh ∨ a ∈ shape.inorder := by
    rw [after, before]
    simp only [List.mem_append, List.mem_cons]
    tauto
  refine ⟨stored, redBlack, ?_, ?_, ?_, sorted⟩
  · intro a mem
    rw [inserted.fresh]
    rcases (mem_iff a).mp mem with rfl | mem
    · exact Nat.lt_succ_self _
    · exact Nat.lt_succ_of_lt (wellFormed.bounded a mem)
  · intro a
    rw [mem_iff, ← wellFormed.keys, inserted.keys]
    by_cases same : a = tree.fresh <;> simp [same]
  · intro a
    rw [mem_iff, ← wellFormed.infos, inserted.infos]
    by_cases same : a = tree.fresh <;> simp [same]

/-- An insertion returns the new node and keeps the tree well formed. -/
theorem rbTreeInsert_spec {shape : ColorTree Nat} (wellFormed : WellFormed comparison tree shape)
    (key : K) (info : V) :
    ∃ next nextShape, rbTreeInsert comparison.compare tree key info =
        some (next, .node tree.fresh) ∧
      WellFormed comparison next nextShape ∧ Inserted tree next shape nextShape key info := by
  have absent : tree.fresh ∉ shape.inorder := fun mem =>
    Nat.lt_irrefl _ (wellFormed.bounded _ mem)
  have keysKept (a : Nat) (mem : a ∈ shape.inorder) :
      (tree.allocate key info).key (.node a) = tree.key (.node a) := by
    have different : a ≠ tree.fresh := fun same => absent (same ▸ mem)
    simp [RedBlackTreeStruct.allocate, different]
  have stored : Stored (tree.allocate key info).toLinks [] shape :=
    wellFormed.stored.congr absent nofun (fun _ _ _ => rfl) (fun _ _ => rfl) (fun p different => by
      simp [RedBlackTreeStruct.allocate, different])
  have sorted : comparison.Sorted (fun a => (tree.allocate key info).key (.node a))
      shape.inorder := wellFormed.sorted.congr keysKept
  obtain ⟨links, last, run, placed, plugged, split⟩ := treeInsertHelp_spec stored absent
    (fun a mem => by rw [keysKept a mem]; exact (wellFormed.keys a).mpr mem) sorted
    (show (tree.allocate key info).key (.node tree.fresh) = some key by
      simp [RedBlackTreeStruct.allocate])
    (Nat.lt_succ_of_lt wellFormed.height_lt)
  obtain ⟨count, settled⟩ := (Path.redBlack_plug last .nil).mp (plugged ▸ wellFormed.redBlack)
  obtain rfl : count = 0 := settled.balanced
  have short : last.length < (tree.allocate key info).loopBound :=
    Nat.lt_succ_of_lt (wellFormed.path_lt plugged)
  have climbing : Climbing (links.setRed (.node tree.fresh) true) tree.fresh last.length _ :=
    ⟨last, .left, .nil, .nil, 0, placed.recolor true, settled.fits,
      (ColorTree.balanced_join_red ..).mpr ⟨rfl, rfl, rfl, rfl⟩, rfl, rfl⟩
  obtain ⟨fixed, nextShape, loop, kept, order, colors⟩ := insertFixUp_spec climbing short
  have before : shape.inorder = last.before ++ last.after := by
    rw [← plugged, Path.plug_inorder]
    simp [ColorTree.inorder]
  have after : nextShape.blacken.inorder = last.before ++ tree.fresh :: last.after := by
    rw [ColorTree.inorder_blacken, order, Path.plug_inorder]
    simp [ColorTree.join, ColorTree.inorder]
  have inserted : Inserted tree { tree.allocate key info with
      toLinks := fixed.setRed (fixed.child .left .root) false } shape nextShape.blacken key info :=
    ⟨⟨_, _, before, after⟩, fun _ => rfl, fun _ => rfl, fun _ => rfl, rfl⟩
  refine ⟨_, nextShape.blacken, ?_, wellFormed.inserted inserted kept.blacken colors ?_, inserted⟩
  · rw [treeInsertHelp] at run
    simp only [rbTreeInsert, rbTreeInsertWithin, run, Option.bind_eq_bind, Option.bind_some]
    rw [loop]
    rfl
  · rw [after]
    exact (before ▸ sorted).insert (by simp [RedBlackTreeStruct.allocate]) split.before split.after

end Insert

end BandwidthLimiter
