import BandwidthLimiter.Tree.DeleteFixUp
import BandwidthLimiter.Tree.WellFormed

namespace BandwidthLimiter
open Foundation

/-- The descent to the left finds the first node below the focus in order. -/
theorem outermost_spec {tree : Links Nat} {path : Path Nat} {red : Bool} {left right : ColorTree Nat}
    {x fuel : Nat} (stored : Stored tree path (.node red left x right))
    (enough : left.height < fuel) :
    ∃ (last : Path Nat) (color : Bool) (y : Nat) (other : ColorTree Nat),
      outermost .left tree fuel (.node x) = some (.node y) ∧
      last.plug (.node color .nil y other) = path.plug (.node red left x right) ∧
      last.before = path.before := by
  induction fuel generalizing path red left x right with
  | zero => omega
  | succ fuel ih =>
      have link : tree.child .left (.node x) = left.top := stored.holds.2.2.2.1
      cases left with
      | nil =>
          refine ⟨path, red, x, right, ?_, rfl, rfl⟩
          simp [outermost, link]
      | node color lower y upper =>
          have below : Stored tree (⟨.left, red, x, right⟩ :: path) (.node color lower y upper) :=
            (Stored.focus ..).mpr stored
          simp only [ColorTree.height] at enough
          obtain ⟨last, shade, z, other, run, plugged, before⟩ := ih below (by omega)
          refine ⟨last, shade, z, other, ?_, plugged, before⟩
          rw [outermost, link]
          simpa [ColorTree.top] using run

section SpliceOut

variable {tree : Links Nat} {path : Path Nat} {side : Side} {red : Bool} {y : Nat}
  {only : ColorTree Nat}

/-- The combined effect of the assignments that take a node out. -/
theorem spliceOut_eq (stored : Stored tree path (.join side red y only .nil)) :
    spliceOut tree (.node y) only.top =
      (tree.setParent only.top path.parent).setChild path.side path.parent only.top := by
  have apart := distinct_join.mp stored.distinct
  have up : tree.parent (.node y) = path.parent := stored.parent_eq
  have slot := stored.holds.1
  rw [ColorTree.top_join] at slot
  have hangs := leftChild_iff slot (sibling_ne_node apart.notPath)
  have different : Pointer.node y ≠ only.top := fun same =>
    apart.notNear (ColorTree.mem_of_top same.symm)
  cases path with
  | nil => simp [spliceOut, up, Path.parent, Path.side]
  | cons frame rest =>
      have placed : Pointer.node y = (tree.setParent only.top (.node frame.address)).child .left
          (.node frame.address) ↔ frame.side = .left := hangs
      simp [spliceOut, up, different, Path.parent, Path.side, replaceChild_eq placed]

/-- Taking a node out puts its only subtree at the focus. -/
theorem Stored.spliceOut (stored : Stored tree path (.join side red y only .nil)) :
    Stored (BandwidthLimiter.spliceOut tree (.node y) only.top) path only := by
  have apart := distinct_join.mp stored.distinct
  have kept := stored.sentinels
  have laid := ((laid_join ..).mp stored.holds.2).2.2.2.2.1
  rw [spliceOut_eq stored]
  refine ⟨⟨?_, ?_⟩, ?_, ?_⟩
  · refine stored.holds.1.rehole apart.path ?_ (by simp) ?_ (fun _ _ => rfl)
    · intro s p _ elsewhere
      simp [elsewhere]
    · intro a mem
      have different : Pointer.node a ≠ only.top := fun same =>
        apart.nearPath a (ColorTree.mem_of_top same.symm) mem
      simp [different]
  · refine laid.reparent apart.near ?_ ?_ ?_ (fun _ _ => rfl)
    · intro a mem s
      have different := Path.parent_ne_node (apart.nearPath a mem)
      simp [Ne.symm different]
    · intro a _ different
      simp [different]
    · intro a top
      simp [top]
  · exact List.nodup_append.mpr ⟨apart.near, apart.path, fun a mem b other same =>
      apart.nearPath a mem (same ▸ other)⟩
  · refine ⟨fun s => ?_, kept.nilBlack, ?_, kept.rootBlack, ?_⟩
    · simp [Ne.symm (Path.parent_ne_nil path), kept.nilChild]
    · simp [Path.not_rootRight path, kept.rootRight]
    · simp [Ne.symm (ColorTree.top_ne_root only), kept.rootParent]

/-- After a node is taken out, the loop for a black node restores the colors. -/
theorem spliceOut_repaired {fuel : Nat} (stored : Stored tree path (.join side red y only .nil))
    (redBlack : (path.plug (.join side red y only .nil)).RedBlack) (enough : path.length < fuel) :
    Repaired (deleteRepair fuel (spliceOut tree (.node y) only.top) (.node y) only.top)
      (path.plug only).inorder := by
  obtain ⟨count, settled⟩ := (Path.redBlack_plug ..).mp redBlack
  have spliced := stored.spliceOut
  have shade : (spliceOut tree (.node y) only.top).red (.node y) = red := by
    rw [spliceOut_eq stored]
    exact stored.red_eq
  have parent : (spliceOut tree (.node y) only.top).parent only.top = path.parent := by
    rw [spliceOut_eq stored]
    simp
  rw [deleteRepair, shade]
  cases red with
  | true =>
      obtain ⟨onlyBlack, -, onlyBalanced, -⟩ :=
        (ColorTree.balanced_join_red ..).mp settled.balanced
      exact ⟨_, _, rfl, spliced.whole, rfl, (Path.redBlack_plug ..).mpr
        ⟨count, settled.fits, onlyBalanced, fun _ => onlyBlack, fun _ => onlyBlack⟩⟩
  | false =>
      obtain ⟨count, rfl, onlyBalanced, -⟩ := settled.balanced.black_count
      have top : (path.plug only).top = (spliceOut tree (.node y) only.top).child .left .root :=
        spliced.whole.holds.1.symm
      exact deleteFixUpLoop_spec spliced settled.fits onlyBalanced parent top enough

end SpliceOut

section ReplaceNode

variable {tree : Links Nat} {path : Path Nat} {red : Bool} {z y : Nat} {left right : ColorTree Nat}

/-- The combined effect of the assignments that put one node in the place of another. -/
theorem replaceNode_eq (stored : Stored tree path (.node red left z right))
    (renamed : Distinct path (.node red left y right)) (different : y ≠ z) :
    replaceNode tree (.node z) (.node y) =
      { child := fun s p =>
          if s = path.side ∧ p = path.parent then .node y
          else if p = .node y then tree.child s (.node z) else tree.child s p
        parent := fun p =>
          if p = left.top ∨ p = right.top then .node y
          else if p = .node y then path.parent else tree.parent p
        red := fun p => if p = .node y then red else tree.red p } := by
  have joined : Stored tree path (.join .left red z left right) := stored
  have apart := distinct_join.mp joined.distinct
  have after : Distinct path (.join .left red y left right) := renamed
  have outside := Path.parent_ne_node (distinct_join.mp after).notPath
  have up := joined.parent_eq
  have shade := joined.red_eq
  have leftLink : tree.child .left (.node z) = left.top := joined.near_eq
  have rightLink : tree.child .right (.node z) = right.top := joined.far_eq
  have slot := joined.holds.1
  rw [ColorTree.top_join] at slot
  have hangs := leftChild_iff slot (sibling_ne_node apart.notPath)
  have notLeft : Pointer.node z ≠ left.top := fun same =>
    apart.notNear (ColorTree.mem_of_top same.symm)
  have notRight : Pointer.node z ≠ right.top := fun same =>
    apart.notFar (ColorTree.mem_of_top same.symm)
  simp only [replaceNode, leftLink, rightLink, Links.setChild_child, Links.setChild_parent,
    Links.setChild_red, Links.setParent_parent, Links.setParent_child, Links.setParent_red,
    Links.setRed_child, Links.setRed_parent, up, shade, Pointer.node.injEq, Ne.symm different,
    and_false, if_false, notLeft, notRight]
  refine (replaceChild_eq (?_ : _ ↔ path.side = .left) _).trans ?_
  · simpa [outside] using hangs
  · simp only [Links.setChild, Links.setParent, Links.setRed, Links.mk.injEq]
    refine ⟨?_, ?_, trivial⟩
    · funext s p
      by_cases moved : p = .node y
      · subst moved
        cases s <;> simp [leftLink, rightLink, Ne.symm outside]
      · simp [moved]
    · funext p
      by_cases first : p = left.top <;> by_cases second : p = right.top <;> simp [first, second]

/-- The replacement keeps the path and puts the new node into the focus link. -/
theorem replaceNode_path (stored : Stored tree path (.node red left z right))
    (renamed : Distinct path (.node red left y right)) (different : y ≠ z) :
    path.Laid (replaceNode tree (.node z) (.node y)) (.node y) := by
  have after : Distinct path (.join .left red y left right) := renamed
  have apart := distinct_join.mp after
  have notY (a : Nat) (mem : a ∈ path.addresses) : a ≠ y := fun same => apart.notPath (same ▸ mem)
  rw [replaceNode_eq stored renamed different]
  refine stored.holds.1.rehole apart.path ?_ (by simp) ?_ ?_
  · intro s p owns elsewhere
    simp [elsewhere, owns.ne_node apart.notPath]
  · intro a mem
    have notLeft : Pointer.node a ≠ left.top := fun same =>
      apart.nearPath a (ColorTree.mem_of_top same.symm) mem
    have notRight : Pointer.node a ≠ right.top := fun same =>
      apart.farPath a (ColorTree.mem_of_top same.symm) mem
    simp [notLeft, notRight, notY a mem]
  · intro a mem
    simp [notY a mem]

/-- The replacement hangs each subtree below the new node. -/
theorem replaceNode_subtree (stored : Stored tree path (.node red left z right))
    (renamed : Distinct path (.node red left y right)) (different : y ≠ z)
    {child other : ColorTree Nat} (apart : Apart path y child other)
    (laid : Laid tree (.node z) child)
    (tops : ∀ p, p = left.top ∨ p = right.top ↔ p = child.top ∨ p = other.top) :
    Laid (replaceNode tree (.node z) (.node y)) (.node y) child := by
  have notY (a : Nat) (mem : a ∈ child.inorder) : a ≠ y := fun same => apart.notNear (same ▸ mem)
  rw [replaceNode_eq stored renamed different]
  refine laid.reparent apart.near ?_ ?_ ?_ ?_
  · intro a mem s
    simp [notY a mem, Ne.symm (Path.parent_ne_node (apart.nearPath a mem))]
  · intro a mem notChild
    have notOther : Pointer.node a ≠ other.top := fun same =>
      apart.nearFar a mem (ColorTree.mem_of_top same.symm)
    simp [tops, notChild, notOther, notY a mem]
  · intro a top
    simp [tops, top]
  · intro a mem
    simp [notY a mem]

theorem replaceNode_sentinels (stored : Stored tree path (.node red left z right))
    (renamed : Distinct path (.node red left y right)) (different : y ≠ z) :
    Sentinels (replaceNode tree (.node z) (.node y)) := by
  have kept := stored.sentinels
  rw [replaceNode_eq stored renamed different]
  refine ⟨fun s => ?_, by simpa using kept.nilBlack, ?_, by simpa using kept.rootBlack, ?_⟩
  · simp [Ne.symm (Path.parent_ne_nil path), kept.nilChild]
  · simp [Path.not_rootRight path, kept.rootRight]
  · simp [Ne.symm (ColorTree.top_ne_root left), Ne.symm (ColorTree.top_ne_root right),
      kept.rootParent]

/-- The replacement stores the same shape with the other address at the focus. -/
theorem Stored.replaceNode (stored : Stored tree path (.node red left z right))
    (renamed : Distinct path (.node red left y right)) (different : y ≠ z) :
    Stored (BandwidthLimiter.replaceNode tree (.node z) (.node y)) path
      (.node red left y right) := by
  have after : Distinct path (.join .left red y left right) := renamed
  have apart := distinct_join.mp after
  have above := Path.parent_ne_node apart.notPath
  have effect := replaceNode_eq stored renamed different
  obtain ⟨-, -, leftLink, rightLink, leftLaid, rightLaid⟩ := stored.holds.2
  refine ⟨⟨replaceNode_path stored renamed different, ?_, ?_, ?_, ?_,
    replaceNode_subtree stored renamed different apart leftLaid fun _ => Iff.rfl,
    replaceNode_subtree stored renamed different apart.symm rightLaid fun _ => Or.comm⟩,
    renamed, replaceNode_sentinels stored renamed different⟩
  · have notLeft : Pointer.node y ≠ left.top := fun same =>
      apart.notNear (ColorTree.mem_of_top same.symm)
    have notRight : Pointer.node y ≠ right.top := fun same =>
      apart.notFar (ColorTree.mem_of_top same.symm)
    simp [effect, notLeft, notRight]
  · simp [effect]
  · simp [effect, Ne.symm above, leftLink]
  · simp [effect, Ne.symm above, rightLink]

end ReplaceNode

variable {K V : Type} {comparison : Comparison K} {tree : RedBlackTreeStruct K V}
  {shape : ColorTree Nat}

/-- The effect of a deletion on the nodes in order and on their contents. -/
structure Deleted (tree next : RedBlackTreeStruct K V) (shape nextShape : ColorTree Nat) (z : Nat) :
    Prop where
  order : ∃ first second, shape.inorder = first ++ z :: second ∧
    nextShape.inorder = first ++ second
  keys : ∀ p, next.key p = if p = .node z then none else tree.key p
  infos : ∀ p, next.info p = if p = .node z then none else tree.info p
  visited : next.visited = tree.visited
  fresh : next.fresh = tree.fresh

/-- A deletion that repairs the links keeps the tree well formed. -/
theorem WellFormed.deleted {next : RedBlackTreeStruct K V} {nextShape : ColorTree Nat} {z : Nat}
    (wellFormed : WellFormed comparison tree shape)
    (deleted : Deleted tree next shape nextShape z) (stored : Stored next.toLinks [] nextShape)
    (redBlack : nextShape.RedBlack) : WellFormed comparison next nextShape := by
  obtain ⟨first, second, before, after⟩ := deleted.order
  have nodup := wellFormed.nodup
  have sorted := wellFormed.sorted
  rw [before] at nodup sorted
  have parts : z ∉ first ++ second := (List.nodup_cons.mp (List.nodup_middle.mp nodup)).1
  have mem_iff (a : Nat) : a ∈ nextShape.inorder ↔ a ≠ z ∧ a ∈ shape.inorder := by
    rw [after, before]
    constructor
    · intro mem
      refine ⟨fun same => parts (same ▸ mem), ?_⟩
      rcases List.mem_append.mp mem with mem | mem <;> simp [mem]
    · rintro ⟨different, mem⟩
      simpa [different] using mem
  refine ⟨stored, redBlack, ?_, ?_, ?_, ?_⟩
  · intro a mem
    rw [deleted.fresh]
    exact wellFormed.bounded a ((mem_iff a).mp mem).2
  · intro a
    rw [mem_iff, ← wellFormed.keys, deleted.keys]
    by_cases same : a = z <;> simp [same]
  · intro a
    rw [mem_iff, ← wellFormed.infos, deleted.infos]
    by_cases same : a = z <;> simp [same]
  · have kept : comparison.Sorted (fun a => tree.key (.node a)) (first ++ second) :=
      List.Pairwise.sublist (by simp) sorted
    rw [after]
    apply kept.congr
    intro a mem
    have different : a ≠ z := fun same => parts (same ▸ mem)
    simp [deleted.keys, different]

/-- A node with at most one subtree leaves the tree by itself. -/
theorem rbDelete_outer {path : Path Nat} {side : Side} {red : Bool} {z : Nat}
    {only : ColorTree Nat} (wellFormed : WellFormed comparison tree shape)
    (plugged : path.plug (.join side red z only .nil) = shape) :
    ∃ next nextShape, rbDelete tree (.node z) =
        some (next, [.key (tree.key (.node z)), .info (tree.info (.node z))]) ∧
      WellFormed comparison next nextShape ∧ Deleted tree next shape nextShape z := by
  subst plugged
  have stored := wellFormed.stored.atFocus
  have short := wellFormed.path_lt rfl
  obtain ⟨links, nextShape, run, kept, order, colors⟩ :=
    spliceOut_repaired stored wellFormed.redBlack short
  have near := stored.near_eq
  have far := stored.far_eq
  have leaf : tree.child .left (.node z) = .nil ∨ tree.child .right (.node z) = .nil := by
    cases side with
    | left => exact .inr far
    | right => exact .inl far
  have x : (if tree.child .left (.node z) = .nil then tree.child .right (.node z)
      else tree.child .left (.node z)) = only.top := by
    cases side with
    | left =>
        simp only [Side.flip] at far
        rw [near, far]
        split <;> simp_all
    | right =>
        simp only [Side.flip] at far
        rw [near, far]
        simp
  have deleted : Deleted tree (RedBlackTreeStruct.free { tree with toLinks := links } (.node z))
      (path.plug (.join side red z only .nil)) nextShape z := by
    refine ⟨?_, fun _ => rfl, fun _ => rfl, rfl, rfl⟩
    rw [order]
    cases side with
    | left => exact ⟨path.before ++ only.inorder, path.after, by
        simp [Path.plug_inorder, ColorTree.join, ColorTree.inorder], by simp [Path.plug_inorder]⟩
    | right => exact ⟨path.before, only.inorder ++ path.after, by
        simp [Path.plug_inorder, ColorTree.join, ColorTree.inorder], by simp [Path.plug_inorder]⟩
  refine ⟨_, nextShape, ?_, wellFormed.deleted deleted kept colors, deleted⟩
  simp only [rbDelete, rbDeleteWithin, leaf, if_true, Option.bind_eq_bind, Option.bind_some, x, ne_eq,
    not_true_eq_false, if_false]
  rw [run]
  rfl

/-- The successor of a node with a right subtree is the first node of that subtree. -/
theorem treeSuccessor_below {path : Path Nat} {red : Bool} {z : Nat} {left right : ColorTree Nat}
    (wellFormed : WellFormed comparison tree shape)
    (plugged : path.plug (.node red left z right) = shape) (proper : right ≠ .nil) :
    ∃ (last : Path Nat) (color : Bool) (y : Nat) (other : ColorTree Nat),
      treeSuccessor tree.loopBound tree.toLinks (.node z) = some (.node y) ∧
      last.plug (.node color .nil y other) = shape ∧
      last.before = path.before ++ (left.inorder ++ [z]) := by
  subst plugged
  have stored := wellFormed.stored.atFocus
  have link : tree.child .right (.node z) = right.top := stored.holds.2.2.2.2.1
  have below : Stored tree.toLinks (⟨.right, red, z, left⟩ :: path) right :=
    (Stored.focus ..).mpr stored
  have small : right.size < tree.loopBound :=
    Nat.lt_of_le_of_lt (Path.size_le_size (⟨.right, red, z, left⟩ :: path) right) wellFormed.size_lt
  have low := right.height_le_size
  cases right with
  | nil => exact absurd rfl proper
  | node rightRed lower x upper =>
      simp only [ColorTree.height] at low
      obtain ⟨last, color, y, other, run, plugged, before⟩ := outermost_spec below
        (show lower.height < tree.loopBound by omega)
      refine ⟨last, color, y, other, ?_, plugged, before⟩
      rw [treeSuccessor, link]
      simpa [ColorTree.top] using run

/-- A node at its place in the order can be renamed to its successor, which left the tree. -/
theorem exists_place {front back : List Nat} {y z : Nat} {middle : ColorTree Nat}
    (unique : (front ++ z :: y :: back).Nodup) (without : middle.inorder = front ++ z :: back) :
    ∃ (place : Path Nat) (shade : Bool) (l r : ColorTree Nat),
      place.plug (.node shade l z r) = middle ∧
      (place.plug (.node shade l y r)).inorder = front ++ y :: back ∧
      Distinct place (.node shade l y r) ∧ y ≠ z := by
  have apart : (front ++ z :: back).Nodup := unique.sublist (by simp)
  obtain ⟨place, shade, l, r, plugged, before, after⟩ :=
    Path.exists_plug_between (without ▸ apart) without
  have parts := (List.nodup_cons.mp (List.nodup_middle.mp unique)).1
  simp only [List.mem_append, List.mem_cons, not_or] at parts
  have final : (place.plug (.node shade l y r)).inorder = front ++ y :: back := by
    rw [Path.plug_inorder, before, after]
    simp [ColorTree.inorder]
  refine ⟨place, shade, l, r, plugged, final, ?_, Ne.symm parts.2.1⟩
  rw [distinct_iff, final]
  exact unique.sublist (by simp)

/-- A node with two subtrees gives its place to its successor. -/
theorem rbDelete_inner {path : Path Nat} {red : Bool} {z : Nat} {left right : ColorTree Nat}
    (wellFormed : WellFormed comparison tree shape)
    (plugged : path.plug (.node red left z right) = shape) (leftProper : left ≠ .nil)
    (rightProper : right ≠ .nil) :
    ∃ next nextShape, rbDelete tree (.node z) =
        some (next, [.key (tree.key (.node z)), .info (tree.info (.node z))]) ∧
      WellFormed comparison next nextShape ∧ Deleted tree next shape nextShape z := by
  subst plugged
  have stored := wellFormed.stored.atFocus
  obtain ⟨-, -, leftLink, rightLink, -, -⟩ := stored.holds.2
  obtain ⟨last, color, y, other, successor, plugged, before⟩ :=
    treeSuccessor_below wellFormed rfl rightProper
  have order : (path.plug (.node red left z right)).inorder =
      (path.before ++ left.inorder) ++ z :: y :: (other.inorder ++ last.after) := by
    rw [← plugged, Path.plug_inorder, before]
    simp [ColorTree.inorder]
  have lastStored : Stored tree.toLinks last (.join .right color y other .nil) :=
    Stored.atFocus (by rw [show ColorTree.join .right color y other .nil =
      .node color .nil y other from rfl, plugged]; exact wellFormed.stored)
  have lastColors : (last.plug (.join .right color y other .nil)).RedBlack := by
    rw [show ColorTree.join .right color y other .nil = .node color .nil y other from rfl, plugged]
    exact wellFormed.redBlack
  obtain ⟨links, middle, run, kept, middleOrder, colors⟩ :=
    spliceOut_repaired lastStored lastColors (wellFormed.path_lt plugged)
  have without : middle.inorder =
      (path.before ++ left.inorder) ++ z :: (other.inorder ++ last.after) := by
    rw [middleOrder, Path.plug_inorder, before]
    simp
  have unique : (path.before ++ left.inorder) ++ z :: y :: (other.inorder ++ last.after) |>.Nodup :=
    order ▸ wellFormed.nodup
  obtain ⟨place, shade, l, r, rfl, final, renamed, different⟩ := exists_place unique without
  have focused : Stored links place (.node shade l z r) := Stored.atFocus kept
  have deleted : Deleted tree (RedBlackTreeStruct.free
        { tree with toLinks := replaceNode links (.node z) (.node y) } (.node z))
      (path.plug (.node red left z right)) (place.plug (.node shade l y r)) z :=
    ⟨⟨_, _, order, final⟩, fun _ => rfl, fun _ => rfl, rfl, rfl⟩
  refine ⟨_, _, ?_, wellFormed.deleted deleted (focused.replaceNode renamed different).whole
    ((Path.redBlack_rename ..).mp colors), deleted⟩
  have inner : ¬(tree.child .left (.node z) = .nil ∨ tree.child .right (.node z) = .nil) := by
    rw [leftLink, rightLink, ColorTree.top_eq_nil, ColorTree.top_eq_nil]
    tauto
  have leftY : tree.child .left (.node y) = .nil := lastStored.far_eq
  have rightY : tree.child .right (.node y) = other.top := lastStored.near_eq
  have notZ : Pointer.node y ≠ .node z := by simpa using different
  simp only [rbDelete, rbDeleteWithin, inner, if_false, successor, Option.bind_eq_bind, Option.bind_some, leftY,
    rightY, if_true, ne_eq, notZ, not_false_eq_true, run]
  rfl

/-- A deletion hands the contents of its node to the callbacks and keeps the tree well formed. -/
theorem rbDelete_spec {z : Nat} (wellFormed : WellFormed comparison tree shape)
    (mem : z ∈ shape.inorder) :
    ∃ next nextShape, rbDelete tree (.node z) =
        some (next, [.key (tree.key (.node z)), .info (tree.info (.node z))]) ∧
      WellFormed comparison next nextShape ∧ Deleted tree next shape nextShape z := by
  obtain ⟨path, red, left, right, plugged⟩ := Path.exists_plug [] mem
  simp only [Path.plug] at plugged
  cases left with
  | nil =>
      exact rbDelete_outer wellFormed
        (show path.plug (.join .right red z right .nil) = shape from plugged)
  | node leftRed leftLeft leftFirst leftRight =>
      cases right with
      | nil =>
          exact rbDelete_outer wellFormed (show path.plug (.join .left red z
            (.node leftRed leftLeft leftFirst leftRight) .nil) = shape from plugged)
      | node rightRed rightLeft rightFirst rightRight =>
          exact rbDelete_inner wellFormed plugged (by simp) (by simp)

end BandwidthLimiter
