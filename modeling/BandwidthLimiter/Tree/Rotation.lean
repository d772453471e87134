import BandwidthLimiter.Tree.RedBlackTree

namespace BandwidthLimiter
open Foundation

/-- The test for a left child finds the side on which the focus hangs. -/
theorem leftChild_iff {tree : Links Nat} {path : Path Nat} {hole : Pointer Nat}
    (laid : path.Laid tree hole) (other : ∀ frame ∈ path.head?, frame.sibling.top ≠ hole) :
    hole = tree.child .left path.parent ↔ path.side = .left := by
  cases path with
  | nil => exact ⟨fun _ => rfl, fun _ => laid.symm⟩
  | cons frame rest =>
      have slot : tree.child frame.side (.node frame.address) = hole := laid.2.2.1
      have sibling : tree.child frame.side.flip (.node frame.address) = frame.sibling.top :=
        laid.2.2.2.1
      have different := other frame rfl
      cases side : frame.side with
      | left =>
          rw [side] at slot
          simp [Path.parent, Path.side, side, slot]
      | right =>
          rw [side] at sibling
          simp only [Path.parent, Path.side, side, reduceCtorEq, iff_false]
          intro same
          exact different (sibling.symm.trans same.symm)

/-- A node outside the path is not the sibling of the focus. -/
theorem sibling_ne_node {path : Path Nat} {x : Nat} (outside : x ∉ path.addresses) :
    ∀ frame ∈ path.head?, frame.sibling.top ≠ .node x := by
  intro frame first same
  cases path with
  | nil => cases first
  | cons head rest =>
      cases first
      exact outside (by simp [Path.addresses, ColorTree.mem_of_top same])

/-- The parent pointer of a path is the root sentinel or a node of the path. -/
theorem Path.parent_ne_node {path : Path Nat} {x : Nat} (outside : x ∉ path.addresses) :
    path.parent ≠ .node x := by
  cases path with
  | nil => simp [Path.parent]
  | cons frame rest =>
      simp only [Path.addresses, List.mem_cons, not_or] at outside
      simp [Path.parent, Ne.symm outside.1]

theorem Path.parent_ne_nil (path : Path Nat) : path.parent ≠ .nil := by
  cases path <;> simp [Path.parent]

/-- No focus hangs on the right of the root sentinel. -/
theorem Path.not_rootRight (path : Path Nat) :
    ¬(Side.right = path.side ∧ Pointer.root = path.parent) := by
  cases path <;> simp [Path.side, Path.parent]

/-- The link that holds the replaced node is the one on its side. -/
theorem replaceChild_eq {tree : Links Nat} {side : Side} {above x : Pointer Nat}
    (hangs : x = tree.child .left above ↔ side = .left) (y : Pointer Nat) :
    replaceChild tree above x y = tree.setChild side above y := by
  unfold replaceChild
  cases side with
  | left => rw [if_pos (hangs.mpr rfl)]
  | right => rw [if_neg (fun same => absurd (hangs.mp same) (by decide))]

/-- The combined effect of the assignments in a rotation. -/
theorem rotate_eq {tree : Links Nat} {side outer : Side} {x y inner above : Pointer Nat}
    (down : tree.child side.flip x = y) (across : tree.child side y = inner)
    (up : tree.parent x = above) (different : y ≠ x) (outside : above ≠ x) (inside : inner ≠ x)
    (hangs : x = tree.child .left above ↔ outer = .left) :
    rotate side tree x =
      { child := fun s p =>
          if s = side ∧ p = y then x
          else if s = outer ∧ p = above then y
          else if s = side.flip ∧ p = x then inner
          else tree.child s p
        parent := fun p =>
          if p = x then y
          else if p = y then above
          else if p = inner ∧ inner ≠ .nil then x
          else tree.parent p
        red := tree.red } := by
  subst up
  have link : (tree.setChild side.flip x inner).child side y = inner := by
    simp [different, across]
  simp only [rotate, down, across, link]
  by_cases empty : inner = .nil
  · have placed : x = ((tree.setChild side.flip x inner).setParent y (tree.parent x)).child .left
        (tree.parent x) ↔ outer = .left := by simpa [outside] using hangs
    simp only [empty, ne_eq, not_true_eq_false, if_false] at placed ⊢
    simp only [Links.setChild_parent, Links.setParent_parent, Ne.symm different, if_false,
      replaceChild_eq placed]
    simp [Links.setChild, Links.setParent]
  · have placed : x = (((tree.setChild side.flip x inner).setParent inner x).setParent y
        (tree.parent x)).child .left (tree.parent x) ↔ outer = .left := by
      simpa [outside] using hangs
    simp only [ne_eq, empty, not_false_eq_true, if_true]
    simp only [Links.setChild_parent, Links.setParent_parent, Ne.symm different, Ne.symm inside,
      if_false, replaceChild_eq placed]
    simp [Links.setChild, Links.setParent]

/-- A rotation keeps the nodes in order. -/
theorem inorder_rotate (side : Side) (xRed yRed : Bool) (x y : Nat)
    (near inner outer : ColorTree Nat) :
    (ColorTree.join side yRed y (.join side xRed x near inner) outer).inorder =
      (ColorTree.join side xRed x near (.join side yRed y inner outer)).inorder := by
  cases side <;> simp [ColorTree.join, ColorTree.inorder]

section Rotate

variable {tree : Links Nat} {path : Path Nat} {side : Side} {xRed yRed : Bool} {x y : Nat}
  {near inner outer : ColorTree Nat}

/-- A rotation at the focus writes the focus link and the links between its two nodes. -/
theorem rotate_at
    (holds : Holds tree path (.join side xRed x near (.join side yRed y inner outer)))
    (distinct : Distinct path (.join side xRed x near (.join side yRed y inner outer))) :
    rotate side tree (.node x) =
      { child := fun s p =>
          if s = side ∧ p = .node y then .node x
          else if s = path.side ∧ p = path.parent then .node y
          else if s = side.flip ∧ p = .node x then inner.top
          else tree.child s p
        parent := fun p =>
          if p = .node x then .node y
          else if p = .node y then path.parent
          else if p = inner.top ∧ inner.top ≠ .nil then .node x
          else tree.parent p
        red := tree.red } := by
  have apart := distinct_join.mp distinct
  obtain ⟨upX, -, -, farX, -, lower⟩ := (laid_join ..).mp holds.2
  obtain ⟨-, -, innerY, -, -, -⟩ := (laid_join ..).mp lower
  have notFar := apart.notFar
  simp only [ColorTree.mem_join, not_or] at notFar
  have slot := holds.1
  rw [ColorTree.top_join] at farX slot
  exact rotate_eq farX innerY upX (by simpa using Ne.symm notFar.1)
    (Path.parent_ne_node apart.notPath) (fun same => notFar.2.1 (ColorTree.mem_of_top same))
    (leftChild_iff slot (sibling_ne_node apart.notPath))

/-- A rotation at the focus keeps the path and puts the lower node into the focus link. -/
theorem rotate_path
    (holds : Holds tree path (.join side xRed x near (.join side yRed y inner outer)))
    (distinct : Distinct path (.join side xRed x near (.join side yRed y inner outer))) :
    path.Laid (rotate side tree (.node x)) (.node y) := by
  have apart := distinct_join.mp distinct
  have farPath := apart.farPath
  simp only [ColorTree.mem_join] at farPath
  have aboveY : path.parent ≠ .node y := Path.parent_ne_node (farPath y (.inl rfl))
  rw [rotate_at holds distinct]
  refine holds.1.rehole apart.path ?_ (by simp [aboveY]) ?_ (fun _ _ => rfl)
  · intro s p owns elsewhere
    simp [owns.ne_node apart.notPath, owns.ne_node (farPath y (.inl rfl)), elsewhere]
  · intro a mem
    have notX : a ≠ x := fun same => apart.notPath (same ▸ mem)
    have notY : a ≠ y := fun same => farPath y (.inl rfl) (same ▸ mem)
    have notInner : Pointer.node a ≠ inner.top := fun same =>
      farPath a (.inr (.inl (ColorTree.mem_of_top same.symm))) mem
    simp [notX, notY, notInner]

/-- A rotation leaves the near subtree as it is. -/
theorem rotate_near
    (holds : Holds tree path (.join side xRed x near (.join side yRed y inner outer)))
    (distinct : Distinct path (.join side xRed x near (.join side yRed y inner outer))) :
    Laid (rotate side tree (.node x)) (.node x) near := by
  have apart := distinct_join.mp distinct
  have nearFar := apart.nearFar
  simp only [ColorTree.mem_join, not_or] at nearFar
  obtain ⟨-, -, -, -, nearLaid, -⟩ := (laid_join ..).mp holds.2
  rw [rotate_at holds distinct]
  refine nearLaid.congr ?_ ?_ (fun _ _ => rfl)
  · intro a mem s
    have notX : a ≠ x := fun same => apart.notNear (same ▸ mem)
    have notY : a ≠ y := (nearFar a mem).1
    simp [notX, notY, Ne.symm (Path.parent_ne_node (apart.nearPath a mem))]
  · intro a mem
    have notX : a ≠ x := fun same => apart.notNear (same ▸ mem)
    have notY : a ≠ y := (nearFar a mem).1
    have notInner : Pointer.node a ≠ inner.top := fun same =>
      (nearFar a mem).2.1 (ColorTree.mem_of_top same.symm)
    simp [notX, notY, notInner]

/-- A rotation hangs the inner subtree below the upper node. -/
theorem rotate_inner
    (holds : Holds tree path (.join side xRed x near (.join side yRed y inner outer)))
    (distinct : Distinct path (.join side xRed x near (.join side yRed y inner outer))) :
    Laid (rotate side tree (.node x)) (.node x) inner := by
  have apart := distinct_join.mp distinct
  have below := apart_of_nodup apart.far
  have farPath := apart.farPath
  have notFar := apart.notFar
  simp only [ColorTree.mem_join, not_or] at farPath notFar
  obtain ⟨-, -, -, -, -, lower⟩ := (laid_join ..).mp holds.2
  obtain ⟨-, -, -, -, innerLaid, -⟩ := (laid_join ..).mp lower
  have notX (a : Nat) (mem : a ∈ inner.inorder) : a ≠ x := fun same => notFar.2.1 (same ▸ mem)
  have notY (a : Nat) (mem : a ∈ inner.inorder) : a ≠ y := fun same => below.notNear (same ▸ mem)
  rw [rotate_at holds distinct]
  refine innerLaid.reparent below.near ?_ ?_ ?_ (fun _ _ => rfl)
  · intro a mem s
    simp [notX a mem, notY a mem, Ne.symm (Path.parent_ne_node (farPath a (.inr (.inl mem))))]
  · intro a mem other
    simp [notX a mem, notY a mem, other]
  · intro a top
    have mem := ColorTree.mem_of_top top
    simp [notX a mem, notY a mem, top]

/-- A rotation leaves the outer subtree as it is. -/
theorem rotate_outer
    (holds : Holds tree path (.join side xRed x near (.join side yRed y inner outer)))
    (distinct : Distinct path (.join side xRed x near (.join side yRed y inner outer))) :
    Laid (rotate side tree (.node x)) (.node y) outer := by
  have apart := distinct_join.mp distinct
  have below := apart_of_nodup apart.far
  have farPath := apart.farPath
  have notFar := apart.notFar
  simp only [ColorTree.mem_join, not_or] at farPath notFar
  obtain ⟨-, -, -, -, -, lower⟩ := (laid_join ..).mp holds.2
  obtain ⟨-, -, -, -, -, outerLaid⟩ := (laid_join ..).mp lower
  have notX (a : Nat) (mem : a ∈ outer.inorder) : a ≠ x := fun same => notFar.2.2 (same ▸ mem)
  have notY (a : Nat) (mem : a ∈ outer.inorder) : a ≠ y := fun same => below.notFar (same ▸ mem)
  rw [rotate_at holds distinct]
  refine outerLaid.congr ?_ ?_ (fun _ _ => rfl)
  · intro a mem s
    simp [notX a mem, notY a mem, Ne.symm (Path.parent_ne_node (farPath a (.inr (.inr mem))))]
  · intro a mem
    have notInner : Pointer.node a ≠ inner.top := fun same =>
      below.nearFar a (ColorTree.mem_of_top same.symm) mem
    simp [notX a mem, notY a mem, notInner]

/-- A rotation at the focus stores the rotated tree. -/
theorem rotate_holds
    (holds : Holds tree path (.join side xRed x near (.join side yRed y inner outer)))
    (distinct : Distinct path (.join side xRed x near (.join side yRed y inner outer))) :
    Holds (rotate side tree (.node x)) path
      (.join side yRed y (.join side xRed x near inner) outer) := by
  have apart := distinct_join.mp distinct
  obtain ⟨-, redX, nearX, -, -, lower⟩ := (laid_join ..).mp holds.2
  obtain ⟨-, redY, -, outerY, -, -⟩ := (laid_join ..).mp lower
  have different : x ≠ y := fun same => apart.notFar (by simp [same])
  have aboveX := Path.parent_ne_node apart.notPath
  have aboveY : path.parent ≠ .node y := Path.parent_ne_node (apart.farPath y (by simp))
  have effect := rotate_at holds distinct
  refine ⟨by simpa using rotate_path holds distinct, (laid_join ..).mpr ⟨?_, ?_, ?_, ?_,
    (laid_join ..).mpr ⟨?_, ?_, ?_, ?_, rotate_near holds distinct, rotate_inner holds distinct⟩,
    rotate_outer holds distinct⟩⟩
  · simp [effect, Ne.symm different]
  · simpa [effect] using redY
  · simp [effect]
  · simp [effect, Ne.symm aboveY, Ne.symm different, outerY]
  · simp [effect]
  · simpa [effect] using redX
  · simp [effect, Ne.symm aboveX, different, nearX]
  · simp [effect, Ne.symm aboveX]

end Rotate

/-- The constant fields of the two sentinels; the parent field of `nil` is free. -/
structure Sentinels (tree : Links Nat) : Prop where
  nilChild : ∀ side, tree.child side .nil = .nil
  nilBlack : tree.red .nil = false
  rootRight : tree.child .right .root = .nil
  rootBlack : tree.red .root = false
  rootParent : tree.parent .root = .nil

/-- The heap stores a focused tree with different addresses and intact sentinels. -/
structure Stored (tree : Links Nat) (path : Path Nat) (shape : ColorTree Nat) : Prop where
  holds : Holds tree path shape
  distinct : Distinct path shape
  sentinels : Sentinels tree

namespace Stored

variable {tree : Links Nat} {path : Path Nat} {side other : Side} {red color : Bool} {x y : Nat}
  {near far inner outer : ColorTree Nat}

theorem focus (frame : Frame Nat) (rest : Path Nat) (shape : ColorTree Nat) :
    Stored tree (frame :: rest) shape ↔
      Stored tree rest (.join frame.side frame.red frame.address shape frame.sibling) :=
  ⟨fun stored => ⟨(holds_cons ..).mp stored.holds, (distinct_cons ..).mp stored.distinct,
      stored.sentinels⟩,
    fun stored => ⟨(holds_cons ..).mpr stored.holds, (distinct_cons ..).mpr stored.distinct,
      stored.sentinels⟩⟩

/-- The focus descends into the far subtree of its node. -/
theorem focusFar (stored : Stored tree path (.join side red x near far)) :
    Stored tree (⟨side.flip, red, x, near⟩ :: path) far :=
  (focus ..).mpr (by rwa [ColorTree.join_flip])

/-- The focus returns from the far subtree. -/
theorem leaveFar (stored : Stored tree (⟨side.flip, red, x, near⟩ :: path) far) :
    Stored tree path (.join side red x near far) := by
  rw [← ColorTree.join_flip]
  exact (focus ..).mp stored

theorem whole {shape : ColorTree Nat} (stored : Stored tree path shape) :
    Stored tree [] (path.plug shape) :=
  ⟨(holds_plug ..).mp stored.holds, (distinct_plug ..).mp stored.distinct, stored.sentinels⟩

theorem atFocus {shape : ColorTree Nat} (stored : Stored tree [] (path.plug shape)) :
    Stored tree path shape :=
  ⟨(holds_plug ..).mpr stored.holds, (distinct_plug ..).mpr stored.distinct, stored.sentinels⟩

theorem nodup {shape : ColorTree Nat} (stored : Stored tree [] shape) : shape.inorder.Nodup := by
  simpa [Distinct, Path.addresses] using stored.distinct

theorem parent_eq (stored : Stored tree path (.join side red x near far)) :
    tree.parent (.node x) = path.parent := stored.holds.child_eq.1

theorem red_eq (stored : Stored tree path (.join side red x near far)) :
    tree.red (.node x) = red := stored.holds.child_eq.2.1

theorem near_eq (stored : Stored tree path (.join side red x near far)) :
    tree.child side (.node x) = near.top := stored.holds.child_eq.2.2.1

theorem far_eq (stored : Stored tree path (.join side red x near far)) :
    tree.child side.flip (.node x) = far.top := stored.holds.child_eq.2.2.2

/-- The color field at the top of the focus is its color; `nil` counts as black. -/
theorem top_red {shape : ColorTree Nat} (stored : Stored tree path shape) :
    tree.red shape.top = shape.isRed := by
  cases shape with
  | nil => exact stored.sentinels.nilBlack
  | node color left address right => exact stored.holds.2.2.1

/-- The subtrees of the focused node hang below it. -/
theorem focusNear (stored : Stored tree path (.join side red x near far)) :
    Stored tree (⟨side, red, x, far⟩ :: path) near := (focus ..).mpr stored

/-- The source finds the side of a node by testing for a left child. -/
theorem side_eq (stored : Stored tree path (.join side red x near far)) :
    (if Pointer.node x = tree.child .left path.parent then Side.left else .right) = path.side := by
  have slot := stored.holds.1
  rw [ColorTree.top_join] at slot
  have test := leftChild_iff slot (sibling_ne_node (distinct_join.mp stored.distinct).notPath)
  split
  · exact (test.mp ‹_›).symm
  · cases hangs : path.side with
    | left => exact absurd (test.mpr hangs) ‹_›
    | right => rfl

/-- The color field of the focused node changes alone. -/
theorem recolor (stored : Stored tree path (.join side red x near far)) (color : Bool) :
    Stored (tree.setRed (.node x) color) path (.join side color x near far) := by
  have apart := distinct_join.mp stored.distinct
  have painted := stored.holds.paint stored.distinct x color (by simp)
  simp only [ColorTree.paint_join, if_true, ColorTree.paint_absent color apart.notNear,
    ColorTree.paint_absent color apart.notFar] at painted
  exact ⟨painted, distinct_join.mpr apart, stored.sentinels.nilChild,
    by simpa using stored.sentinels.nilBlack, stored.sentinels.rootRight,
    by simpa using stored.sentinels.rootBlack, stored.sentinels.rootParent⟩

/-- Coloring the top node black stores the blackened tree. -/
theorem blacken {shape : ColorTree Nat} (stored : Stored tree [] shape) :
    Stored (tree.setRed (tree.child .left .root) false) [] shape.blacken := by
  have top : tree.child .left .root = shape.top := stored.holds.1
  rw [top]
  cases shape with
  | nil =>
      rw [ColorTree.top_nil, Links.setRed_same _ stored.sentinels.nilBlack]
      exact stored
  | node red left address right =>
      have joined : Stored tree [] (.join .left red address left right) := stored
      exact joined.recolor false

theorem recolorNear
    (stored : Stored tree path (.join side red x (.join other color y inner outer) far))
    (shade : Bool) :
    Stored (tree.setRed (.node y) shade) path
      (.join side red x (.join other shade y inner outer) far) :=
  (focus ⟨side, red, x, far⟩ path _).mp
    (recolor ((focus ⟨side, red, x, far⟩ path _).mpr stored) shade)

theorem recolorFar
    (stored : Stored tree path (.join side red x near (.join other color y inner outer)))
    (shade : Bool) :
    Stored (tree.setRed (.node y) shade) path
      (.join side red x near (.join other shade y inner outer)) :=
  (stored.focusFar.recolor shade).leaveFar

/-- A rotation keeps the stored nodes and the sentinels. -/
theorem rotate (stored : Stored tree path (.join side red x near (.join side color y inner outer))) :
    Stored (BandwidthLimiter.rotate side tree (.node x)) path
      (.join side color y (.join side red x near inner) outer) := by
  refine ⟨rotate_holds stored.holds stored.distinct, ?_, ?_⟩
  · rw [Distinct, inorder_rotate]
    exact stored.distinct
  · have kept := stored.sentinels
    rw [rotate_at stored.holds stored.distinct]
    refine ⟨fun s => ?_, kept.nilBlack, ?_, kept.rootBlack, ?_⟩
    · simp [Ne.symm (Path.parent_ne_nil path), kept.nilChild]
    · simp [Path.not_rootRight path, kept.rootRight]
    · simp [Ne.symm (ColorTree.top_ne_root inner), kept.rootParent]

/-- A rotation keeps the parent field of `nil`. -/
theorem rotate_parent_nil
    (stored : Stored tree path (.join side red x near (.join side color y inner outer))) :
    (BandwidthLimiter.rotate side tree (.node x)).parent .nil = tree.parent .nil := by
  rw [rotate_at stored.holds stored.distinct]
  by_cases empty : inner.top = .nil
  · simp [empty]
  · simp [Ne.symm empty]

end Stored

end BandwidthLimiter
