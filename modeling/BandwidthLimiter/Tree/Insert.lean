import BandwidthLimiter.Tree.Rotation

namespace BandwidthLimiter
open Foundation

section Step

variable {tree : Links Nat} {path : Path Nat} {side xSide uSide : Side} {g p x u : Nat}
  {left right sibling uncle a b : ColorTree Nat}

/-- A red uncle takes the black color of the grandparent. -/
theorem insertFixUpSide_redUncle {parentSide : Side}
    (stored : Stored tree path (.join side false g
      (.join parentSide true p (.join xSide true x left right) sibling)
      (.join uSide true u a b))) :
    (insertFixUpSide side tree (.node x)).2 = .node g ∧
      Stored (insertFixUpSide side tree (.node x)).1 path (.join side true g
        (.join parentSide false p (.join xSide true x left right) sibling)
        (.join uSide false u a b)) := by
  have parentX : tree.parent (.node x) = .node p := stored.focusNear.focusNear.parent_eq
  have parentP : tree.parent (.node p) = .node g := stored.focusNear.parent_eq
  have uncleLink : tree.child side.flip (.node g) = .node u := by simpa using stored.far_eq
  have uncleRed : tree.red (.node u) = true := stored.focusFar.red_eq
  have painted := ((stored.recolorNear false).recolorFar false).recolor true
  simp [insertFixUpSide, parentX, parentP, uncleLink, uncleRed, painted]

/-- The last rotation puts the parent above the grandparent. -/
theorem insertLastRotation_spec
    (stored : Stored tree path (.join side false g
      (.join side true p (.join xSide true x left right) sibling) uncle)) :
    Stored (insertLastRotation side tree (.node x)) path
      (.join side false p (.join xSide true x left right) (.join side true g sibling uncle)) := by
  have parentX : tree.parent (.node x) = .node p := stored.focusNear.focusNear.parent_eq
  have parentP : tree.parent (.node p) = .node g := stored.focusNear.parent_eq
  have painted := (stored.recolorNear false).recolor true
  rw [← ColorTree.join_flip, ← ColorTree.join_flip side false] at painted
  have rotated := painted.rotate
  rw [ColorTree.join_flip, ColorTree.join_flip side true] at rotated
  simpa [insertLastRotation, parentX, parentP] using rotated

/-- With a black uncle and an outer child, one rotation restores the colors. -/
theorem insertFixUpSide_outer (black : uncle.isRed = false)
    (stored : Stored tree path (.join side false g
      (.join side true p (.join xSide true x left right) sibling) uncle)) :
    (insertFixUpSide side tree (.node x)).2 = .node x ∧
      Stored (insertFixUpSide side tree (.node x)).1 path
        (.join side false p (.join xSide true x left right) (.join side true g sibling uncle)) := by
  have parentX : tree.parent (.node x) = .node p := stored.focusNear.focusNear.parent_eq
  have parentP : tree.parent (.node p) = .node g := stored.focusNear.parent_eq
  have uncleLink : tree.child side.flip (.node g) = uncle.top := stored.far_eq
  have uncleRed : tree.red uncle.top = false := stored.focusFar.top_red.trans black
  have siblingLink : tree.child side.flip (.node p) = sibling.top := stored.focusNear.far_eq
  have different : Pointer.node x ≠ sibling.top := by
    intro same
    have apart := distinct_join.mp stored.focusNear.distinct
    exact apart.nearFar x (by simp) (ColorTree.mem_of_top same.symm)
  have last := insertLastRotation_spec stored
  simp [insertFixUpSide, parentX, parentP, uncleLink, uncleRed, siblingLink, different, last]

/-- With a black uncle and an inner child, two rotations restore the colors. -/
theorem insertFixUpSide_inner (black : uncle.isRed = false)
    (stored : Stored tree path (.join side false g
      (.join side true p sibling (.join side true x left right)) uncle)) :
    (insertFixUpSide side tree (.node x)).2 = .node p ∧
      Stored (insertFixUpSide side tree (.node x)).1 path
        (.join side false x (.join side true p sibling left) (.join side true g right uncle)) := by
  have parentX : tree.parent (.node x) = .node p := stored.focusNear.focusFar.parent_eq
  have parentP : tree.parent (.node p) = .node g := stored.focusNear.parent_eq
  have uncleLink : tree.child side.flip (.node g) = uncle.top := stored.far_eq
  have uncleRed : tree.red uncle.top = false := stored.focusFar.top_red.trans black
  have link : tree.child side.flip (.node p) = .node x := by simpa using stored.focusNear.far_eq
  have rotated := (Stored.focus ..).mp stored.focusNear.rotate
  have last := insertLastRotation_spec rotated
  simp [insertFixUpSide, parentX, parentP, uncleLink, uncleRed, link, last]

end Step

/-- The loop leaves the tree alone once the parent is black. -/
theorem insertFixUp_black {tree : Links Nat} {x : Pointer Nat}
    (black : tree.red (tree.parent x) = false) (fuel : Nat) :
    insertFixUp (fuel + 1) tree x = some tree := by
  simp [insertFixUp, black]

/-- With a red parent the loop takes one step on the side of the parent. -/
theorem insertFixUp_step {tree : Links Nat} {x p g : Pointer Nat} {side : Side}
    (parentX : tree.parent x = p) (parentP : tree.parent p = g) (redP : tree.red p = true)
    (hangs : (if p = tree.child .left g then Side.left else .right) = side) (fuel : Nat) :
    insertFixUp (fuel + 1) tree x =
      insertFixUp fuel (insertFixUpSide side tree x).1 (insertFixUpSide side tree x).2 := by
  simp only [insertFixUp, parentX, parentP, redP, if_true, hangs]

/-- The insertion loop stands at a red node below a path that completes it. -/
def Climbing (tree : Links Nat) (x depth : Nat) (order : List Nat) : Prop :=
  ∃ (path : Path Nat) (side : Side) (left right : ColorTree Nat) (count : Nat),
    Stored tree path (.join side true x left right) ∧ path.Fits count ∧
      (ColorTree.join side true x left right).Balanced count ∧ path.length = depth ∧
      (path.plug (.join side true x left right)).inorder = order

section Climb

variable {tree : Links Nat} {rest : Path Nat} {side parentSide xSide : Side} {g p x count : Nat}
  {left right sibling uncle : ColorTree Nat}

/-- A red uncle moves the loop up to the grandparent. -/
theorem climbing_redUncle (red : uncle.isRed = true)
    (stored : Stored tree rest (.join side false g
      (.join parentSide true p (.join xSide true x left right) sibling) uncle))
    (fits : rest.Fits (count + 1)) (uncleBalanced : uncle.Balanced count)
    (siblingBalanced : sibling.Balanced count)
    (balanced : (ColorTree.join xSide true x left right).Balanced count) :
    (insertFixUpSide side tree (.node x)).2 = .node g ∧
      Climbing (insertFixUpSide side tree (.node x)).1 g rest.length (rest.plug (.join side false g
        (.join parentSide true p (.join xSide true x left right) sibling) uncle)).inorder := by
  obtain ⟨shade, u, a, b, rfl⟩ := ColorTree.exists_join .left
    (show uncle ≠ .nil by rintro rfl; cases red)
  obtain rfl : shade = true := by simpa using red
  obtain ⟨-, -, nearBalanced, farBalanced⟩ := (ColorTree.balanced_join_red ..).mp uncleBalanced
  obtain ⟨moved, painted⟩ := insertFixUpSide_redUncle stored
  refine ⟨moved, rest, side, _, _, count + 1, painted, fits, ?_, rfl, ?_⟩
  · have parents := (ColorTree.balanced_join_black parentSide p _ _ _).mpr ⟨balanced, siblingBalanced⟩
    have uncles := (ColorTree.balanced_join_black .left u _ _ _).mpr ⟨nearBalanced, farBalanced⟩
    exact (ColorTree.balanced_join_red ..).mpr ⟨by simp, by simp, parents, uncles⟩
  · cases side <;> cases parentSide <;> simp [Path.plug_inorder, ColorTree.join, ColorTree.inorder]

/-- With a black uncle and an outer child, the loop stops below the black parent. -/
theorem climbing_outer (black : uncle.isRed = false)
    (stored : Stored tree rest (.join side false g
      (.join side true p (.join xSide true x left right) sibling) uncle))
    (fits : rest.Fits (count + 1)) (uncleBalanced : uncle.Balanced count)
    (siblingBlack : sibling.isRed = false) (siblingBalanced : sibling.Balanced count)
    (balanced : (ColorTree.join xSide true x left right).Balanced count) :
    (insertFixUpSide side tree (.node x)).2 = .node x ∧
      Climbing (insertFixUpSide side tree (.node x)).1 x (rest.length + 1) (rest.plug
        (.join side false g (.join side true p (.join xSide true x left right) sibling)
          uncle)).inorder := by
  obtain ⟨moved, rotated⟩ := insertFixUpSide_outer black stored
  have lower := (ColorTree.balanced_join_red side g sibling uncle count).mpr
    ⟨siblingBlack, black, siblingBalanced, uncleBalanced⟩
  refine ⟨moved, _, xSide, _, _, count, rotated.focusNear, Path.fits_black.mpr ⟨lower, fits⟩,
    balanced, rfl, ?_⟩
  cases side <;> simp [Path.plug, Path.plug_inorder, ColorTree.join, ColorTree.inorder]

/-- With a black uncle and an inner child, the loop stops at the parent below the black node. -/
theorem climbing_inner (black : uncle.isRed = false)
    (stored : Stored tree rest (.join side false g
      (.join side true p sibling (.join side true x left right)) uncle))
    (fits : rest.Fits (count + 1)) (uncleBalanced : uncle.Balanced count)
    (siblingBlack : sibling.isRed = false) (siblingBalanced : sibling.Balanced count)
    (balanced : (ColorTree.join side true x left right).Balanced count) :
    (insertFixUpSide side tree (.node x)).2 = .node p ∧
      Climbing (insertFixUpSide side tree (.node x)).1 p (rest.length + 1) (rest.plug
        (.join side false g (.join side true p sibling (.join side true x left right))
          uncle)).inorder := by
  obtain ⟨moved, rotated⟩ := insertFixUpSide_inner black stored
  obtain ⟨leftBlack, rightBlack, leftBalanced, rightBalanced⟩ :=
    (ColorTree.balanced_join_red ..).mp balanced
  have upper := (ColorTree.balanced_join_red side p sibling left count).mpr
    ⟨siblingBlack, leftBlack, siblingBalanced, leftBalanced⟩
  have lower := (ColorTree.balanced_join_red side g right uncle count).mpr
    ⟨rightBlack, black, rightBalanced, uncleBalanced⟩
  refine ⟨moved, _, side, _, _, count, rotated.focusNear, Path.fits_black.mpr ⟨lower, fits⟩,
    upper, rfl, ?_⟩
  cases side <;> simp [Path.plug, Path.plug_inorder, ColorTree.join, ColorTree.inorder]

end Climb

namespace Climbing

variable {tree : Links Nat} {x depth : Nat} {order : List Nat}

/-- Below a black parent only the top of the tree may be red. -/
theorem stop (climbing : Climbing tree x depth order)
    (black : tree.red (tree.parent (.node x)) = false) :
    ∃ shape, Stored tree [] shape ∧ shape.inorder = order ∧ shape.blacken.RedBlack := by
  obtain ⟨path, side, left, right, count, stored, fits, balanced, -, rfl⟩ := climbing
  refine ⟨_, stored.whole, rfl, ?_⟩
  cases path with
  | nil => exact balanced.blacken
  | cons frame rest =>
      rcases frame with ⟨parentSide, shade, p, sibling⟩
      obtain rfl : shade = false := by
        rwa [stored.parent_eq, Path.parent, ((Stored.focus ..).mp stored).red_eq] at black
      have settled := (Path.redBlack_plug ..).mpr ⟨count, Path.settled_black fits balanced⟩
      exact settled.2.choose_spec.blacken

/-- Below a red parent the loop takes a step that brings it closer to the top. -/
theorem step (climbing : Climbing tree x depth order)
    (red : tree.red (tree.parent (.node x)) = true) :
    ∃ next y smaller, (∀ fuel, insertFixUp (fuel + 1) tree (.node x) =
        insertFixUp fuel next (.node y)) ∧ smaller < depth ∧ Climbing next y smaller order := by
  obtain ⟨path, side, left, right, count, stored, fits, balanced, rfl, rfl⟩ := climbing
  have parentX := stored.parent_eq
  rw [parentX] at red
  cases path with
  | nil => exact absurd (red.symm.trans stored.sentinels.rootBlack) (by decide)
  | cons frame rest =>
      rcases frame with ⟨parentSide, shade, p, sibling⟩
      have whole := (Stored.focus ..).mp stored
      obtain rfl : shade = true := whole.red_eq.symm.trans red
      obtain ⟨siblingBalanced, colors, fitsAbove⟩ := fits
      obtain ⟨siblingBlack, topBlack, inside⟩ := colors rfl
      cases rest with
      | nil => exact absurd rfl inside
      | cons frame rest =>
          rcases frame with ⟨grandSide, shade, g, uncle⟩
          obtain rfl : shade = false := topBlack
          obtain ⟨uncleBalanced, fitsRest⟩ := Path.fits_black.mp fitsAbove
          have above : Stored tree rest (.join grandSide false g (.join parentSide true p
            (.join side true x left right) sibling) uncle) := (Stored.focus ..).mp whole
          have taken := insertFixUp_step parentX whole.parent_eq whole.red_eq whole.side_eq
          simp only [Path.plug, Path.side, List.length_cons] at taken ⊢
          cases black : uncle.isRed with
          | true =>
              obtain ⟨moved, next⟩ := climbing_redUncle black above fitsRest uncleBalanced
                siblingBalanced balanced
              exact ⟨_, g, _, fun fuel => by rw [taken, moved], by omega, next⟩
          | false =>
              rcases Side.eq_or_flip grandSide parentSide with rfl | rfl
              · obtain ⟨moved, next⟩ := climbing_outer black above fitsRest uncleBalanced
                  siblingBlack siblingBalanced balanced
                exact ⟨_, x, _, fun fuel => by rw [taken, moved], by omega, next⟩
              · obtain ⟨inner, outer, turned⟩ := ColorTree.join_from grandSide side true x left right
                rw [turned] at balanced above ⊢
                rw [ColorTree.join_flip] at above ⊢
                obtain ⟨moved, next⟩ := climbing_inner black above fitsRest uncleBalanced
                  siblingBlack siblingBalanced balanced
                exact ⟨_, p, _, fun fuel => by rw [taken, moved], by omega, next⟩

end Climbing

/-- The insertion loop returns and restores the colors without moving a node in order. -/
theorem insertFixUp_spec {fuel : Nat} {tree : Links Nat} {x depth : Nat} {order : List Nat}
    (climbing : Climbing tree x depth order) (enough : depth < fuel) :
    ∃ next shape, insertFixUp fuel tree (.node x) = some next ∧ Stored next [] shape ∧
      shape.inorder = order ∧ shape.blacken.RedBlack := by
  induction fuel generalizing tree x depth with
  | zero => omega
  | succ fuel ih =>
      cases color : tree.red (tree.parent (.node x)) with
      | false =>
          obtain ⟨shape, stored, kept, redBlack⟩ := climbing.stop color
          exact ⟨tree, shape, insertFixUp_black color fuel, stored, kept, redBlack⟩
      | true =>
          obtain ⟨next, y, smaller, taken, closer, later⟩ := climbing.step color
          rw [taken]
          exact ih later (by omega)

end BandwidthLimiter
