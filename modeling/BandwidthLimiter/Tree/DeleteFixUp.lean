import BandwidthLimiter.Tree.Rotation

namespace BandwidthLimiter
open Foundation

section Step

variable {tree next : Links Nat} {path : Path Nat} {side : Side} {color : Bool} {f w v : Nat}
  {focus near far inner outer : ColorTree Nat}

/-- The parent of a focus survives changes that keep the parent field of `nil`. -/
theorem Stored.parent_top {frame : Frame Nat} (stored : Stored next (frame :: path) focus)
    (parent : tree.parent focus.top = .node frame.address)
    (kept : next.parent .nil = tree.parent .nil) :
    next.parent focus.top = .node frame.address := by
  cases focus with
  | nil => exact kept.trans parent
  | node red left address right => exact stored.holds.2.1

/-- A red sibling moves above the parent and leaves a black sibling. -/
theorem deleteBlackSibling_red
    (stored : Stored tree path (.join side false f focus (.join side true w near far)))
    (parent : tree.parent focus.top = .node f) :
    (deleteBlackSibling side tree focus.top).2 = near.top ∧
      Stored (deleteBlackSibling side tree focus.top).1 path
        (.join side false w (.join side true f focus near) far) ∧
      (deleteBlackSibling side tree focus.top).1.parent focus.top = .node f := by
  have link : tree.child side.flip (.node f) = .node w := by simpa using stored.far_eq
  have shade : tree.red (.node w) = true := stored.focusFar.red_eq
  have painted := (stored.recolorFar false).recolor true
  have rotated := painted.rotate
  have kept := rotated.focusNear.focusNear.parent_top parent
    painted.rotate_parent_nil
  have result : deleteBlackSibling side tree focus.top =
      (rotate side ((tree.setRed (.node w) false).setRed (.node f) true) (.node f), near.top) := by
    simp [deleteBlackSibling, parent, link, shade, kept, rotated.focusNear.far_eq]
  rw [result]
  exact ⟨rfl, rotated, kept⟩

/-- A black sibling stays. -/
theorem deleteBlackSibling_black {w : Pointer Nat} {x : Pointer Nat}
    (link : tree.child side.flip (tree.parent x) = w) (black : tree.red w = false) :
    deleteBlackSibling side tree x = (tree, w) := by
  simp [deleteBlackSibling, link, black]

/-- A red far nephew stays. -/
theorem deleteRedNephew_far {w : Pointer Nat} (red : tree.red (tree.child side.flip w) = true)
    (x : Pointer Nat) : deleteRedNephew side tree x w = (tree, w) := by
  simp [deleteRedNephew, red]

/-- A red near nephew moves above the sibling, which becomes the red far nephew. -/
theorem deleteRedNephew_near
    (stored : Stored tree path (.join side color f focus
      (.join side false w (.join side true v inner outer) far)))
    (parent : tree.parent focus.top = .node f) (black : far.isRed = false) :
    (deleteRedNephew side tree focus.top (.node w)).2 = .node v ∧
      Stored (deleteRedNephew side tree focus.top (.node w)).1 path (.join side color f focus
        (.join side false v inner (.join side true w outer far))) ∧
      (deleteRedNephew side tree focus.top (.node w)).1.parent focus.top = .node f := by
  have farLink : tree.child side.flip (.node w) = far.top := stored.focusFar.far_eq
  have farRed : tree.red far.top = false := stored.focusFar.focusFar.top_red.trans black
  have nearLink : tree.child side (.node w) = .node v := by simpa using stored.focusFar.near_eq
  have painted := (stored.focusFar.recolorNear false).recolor true
  rw [← ColorTree.join_flip, ← ColorTree.join_flip side false] at painted
  have rotated := painted.rotate
  have nilKept := painted.rotate_parent_nil
  rw [ColorTree.join_flip, ColorTree.join_flip side true] at rotated
  have whole := rotated.leaveFar
  have kept := whole.focusNear.parent_top parent nilKept
  have result : deleteRedNephew side tree focus.top (.node w) =
      (rotate side.flip ((tree.setRed (.node v) false).setRed (.node w) true) (.node w),
        .node v) := by
    have found := whole.far_eq
    rw [ColorTree.top_join] at found
    simp [deleteRedNephew, farLink, farRed, nearLink, kept, found]
  rw [result]
  exact ⟨rfl, whole, kept⟩

/-- The last rotation moves the sibling above the parent with the color of the parent. -/
theorem deleteLastRotation_spec {u : Nat} {farSide : Side}
    (stored : Stored tree path (.join side color f focus
      (.join side false w near (.join farSide true u inner outer))))
    (parent : tree.parent focus.top = .node f) :
    Stored (deleteLastRotation side tree focus.top (.node w)) path
      (.join side color w (.join side false f focus near)
        (.join farSide false u inner outer)) := by
  have farLink : tree.child side.flip (.node w) = .node u := by
    simpa using stored.focusFar.far_eq
  have painted := ((stored.recolorFar color).recolor false).focusFar.recolorFar false
  have rotated := painted.leaveFar.rotate
  have shade := stored.red_eq
  simpa [deleteLastRotation, parent, shade, farLink] using rotated

/-- The last rotation gives the subtree its color and its black count back. -/
theorem deleteLastRotation_balanced {count : Nat}
    (stored : Stored tree path (.join side color f focus (.join side false w near far)))
    (parent : tree.parent focus.top = .node f) (focusBalanced : focus.Balanced count)
    (nearBalanced : near.Balanced count) (farBalanced : far.Balanced count)
    (red : far.isRed = true) :
    ∃ shape, Stored (deleteLastRotation side tree focus.top (.node w)) path shape ∧
      shape.isRed = color ∧
      (deleteLastRotation side tree focus.top (.node w)).red (.node f) = false ∧
      shape.Balanced (if color then count + 1 else count + 2) ∧
      shape.inorder =
        (ColorTree.join side color f focus (.join side false w near far)).inorder := by
  obtain ⟨shade, u, inner, outer, rfl⟩ := ColorTree.exists_join side
    (show far ≠ .nil by rintro rfl; cases red)
  obtain rfl : shade = true := by simpa using red
  have rotated := deleteLastRotation_spec stored parent
  refine ⟨_, rotated, by simp, rotated.focusNear.red_eq, ?_, ?_⟩
  · have lower := (ColorTree.balanced_join_black side f focus near count).mpr
      ⟨focusBalanced, nearBalanced⟩
    have upper := (ColorTree.balanced_join_black side u inner outer count).mpr
      ((ColorTree.balanced_join_red ..).mp farBalanced).2.2
    cases color with
    | true => exact (ColorTree.balanced_join_red ..).mpr ⟨by simp, by simp, lower, upper⟩
    | false => exact (ColorTree.balanced_join_black ..).mpr ⟨lower, upper⟩
  · cases side <;> simp [ColorTree.join, ColorTree.inorder]

/-- The color test of the source reads both nephews. -/
theorem nephews_eq
    (stored : Stored tree path (.join side color f focus (.join side false w near far))) :
    (!tree.red (tree.child .right (.node w)) && !tree.red (tree.child .left (.node w))) =
      (!near.isRed && !far.isRed) := by
  have nearLink := stored.focusFar.near_eq
  have farLink := stored.focusFar.far_eq
  have nearRed := stored.focusFar.focusNear.top_red
  have farRed := stored.focusFar.focusFar.top_red
  cases side with
  | left =>
      simp only [Side.flip] at farLink
      rw [nearLink, farLink, nearRed, farRed, Bool.and_comm]
  | right =>
      simp only [Side.flip] at farLink
      rw [nearLink, farLink, nearRed, farRed]

/-- With two black nephews the sibling turns red and the step moves to the parent. -/
theorem deleteBlackStep_recolor (top : Pointer Nat)
    (stored : Stored tree path (.join side color f focus (.join side false w near far)))
    (parent : tree.parent focus.top = .node f) (nearBlack : near.isRed = false)
    (farBlack : far.isRed = false) :
    deleteBlackStep side tree top focus.top (.node w) = (tree.setRed (.node w) true, .node f) ∧
      Stored (tree.setRed (.node w) true) path
        (.join side color f focus (.join side true w near far)) := by
  have test := nephews_eq stored
  simp only [nearBlack, farBlack, Bool.not_false, Bool.and_self] at test
  refine ⟨?_, stored.recolorFar true⟩
  simp only [deleteBlackStep, test, if_true, parent]

/-- With a red nephew the step repairs the subtree and ends the loop. -/
theorem deleteBlackStep_rotate {count : Nat} (top : Pointer Nat)
    (stored : Stored tree path (.join side color f focus (.join side false w near far)))
    (parent : tree.parent focus.top = .node f)
    (red : ¬(near.isRed = false ∧ far.isRed = false))
    (focusBalanced : focus.Balanced count) (nearBalanced : near.Balanced count)
    (farBalanced : far.Balanced count) :
    ∃ next shape, deleteBlackStep side tree top focus.top (.node w) = (next, top) ∧
      Stored next path shape ∧ shape.isRed = color ∧ next.red (.node f) = false ∧
      shape.Balanced (if color then count + 1 else count + 2) ∧
      shape.inorder =
        (ColorTree.join side color f focus (.join side false w near far)).inorder := by
  have test := nephews_eq stored
  have someRed : (!near.isRed && !far.isRed) = false := by
    cases nearRed : near.isRed <;> cases farRed : far.isRed <;> simp_all
  rw [someRed] at test
  cases farRed : far.isRed with
  | true =>
      have farShade : tree.red (tree.child side.flip (.node w)) = true := by
        rw [stored.focusFar.far_eq, stored.focusFar.focusFar.top_red, farRed]
      have kept := deleteRedNephew_far farShade focus.top
      obtain ⟨shape, rotated, shade, above, balanced, order⟩ :=
        deleteLastRotation_balanced stored parent focusBalanced nearBalanced farBalanced farRed
      refine ⟨_, shape, ?_, rotated, shade, above, balanced, order⟩
      simp only [deleteBlackStep, test, kept, Bool.false_eq_true, if_false]
  | false =>
      have nearRed : near.isRed = true := by simpa [farRed] using someRed
      obtain ⟨shade, v, inner, outer, rfl⟩ := ColorTree.exists_join side
        (show near ≠ .nil by rintro rfl; cases nearRed)
      obtain rfl : shade = true := by simpa using nearRed
      obtain ⟨innerBlack, outerBlack, innerBalanced, outerBalanced⟩ :=
        (ColorTree.balanced_join_red ..).mp nearBalanced
      obtain ⟨found, turned, above⟩ := deleteRedNephew_near stored parent farRed
      have farther := (ColorTree.balanced_join_red side w outer far count).mpr
        ⟨outerBlack, farRed, outerBalanced, farBalanced⟩
      obtain ⟨shape, rotated, shade, black, balanced, order⟩ :=
        deleteLastRotation_balanced turned above focusBalanced innerBalanced farther (by simp)
      refine ⟨_, shape, ?_, rotated, shade, black, balanced, ?_⟩
      · simp only [deleteBlackStep, test, Bool.false_eq_true, if_false, found]
      · rw [order]
        cases side <;> simp [ColorTree.join, ColorTree.inorder]

end Step

/-- The loop ends at a red node or at the recorded top. -/
theorem deleteFixUpLoop_exit {top x : Pointer Nat} {tree : Links Nat}
    (done : tree.red x = true ∨ top = x) (fuel : Nat) :
    deleteFixUpLoop top (fuel + 1) tree x = some (tree.setRed x false) := by
  rcases done with red | rfl
  · simp [deleteFixUpLoop, red]
  · simp [deleteFixUpLoop]

/-- The loop takes one step at a black node below the top. -/
theorem deleteFixUpLoop_step {top x : Pointer Nat} {tree : Links Nat} {side : Side}
    (black : tree.red x = false) (below : top ≠ x)
    (hangs : x = tree.child .left (tree.parent x) ↔ side = .left) (fuel : Nat) :
    deleteFixUpLoop top (fuel + 1) tree x =
      deleteFixUpLoop top fuel (deleteFixUpSide side tree top x).1
        (deleteFixUpSide side tree top x).2 := by
  have chosen : (if x = tree.child .left (tree.parent x) then Side.left else .right) = side := by
    cases side with
    | left => rw [if_pos (hangs.mpr rfl)]
    | right => rw [if_neg (fun same => absurd (hangs.mp same) (by decide))]
  simp only [deleteFixUpLoop, black, Bool.not_false, Bool.true_and, ne_eq, below,
    not_false_eq_true, decide_true, if_true, chosen]

/-- A finished deletion loop stores a red-black tree with the given order. -/
abbrev Repaired (result : Option (Links Nat)) (order : List Nat) : Prop :=
  ∃ next shape, result = some next ∧ Stored next [] shape ∧ shape.inorder = order ∧ shape.RedBlack

section Loop

variable {tree : Links Nat} {path rest : Path Nat} {side : Side} {color : Bool} {f w : Nat}
  {focus near far shape : ColorTree Nat} {count fuel : Nat} {top : Pointer Nat}

/-- At the top of the tree the loop only colors the node black. -/
theorem deleteFixUpLoop_top (stored : Stored tree [] focus) (balanced : focus.Balanced count)
    (fuel : Nat) : Repaired (deleteFixUpLoop focus.top (fuel + 1) tree focus.top) focus.inorder := by
  have link : tree.child .left .root = focus.top := stored.holds.1
  refine ⟨_, _, deleteFixUpLoop_exit (.inr rfl) fuel, ?_, ColorTree.inorder_blacken _,
    balanced.blacken⟩
  rw [← link]
  exact stored.blacken

/-- At a red node the loop gives the missing black node back. -/
theorem deleteFixUpLoop_red (stored : Stored tree path (.join side true f near far))
    (fits : path.Fits (count + 1)) (nearBalanced : near.Balanced count)
    (farBalanced : far.Balanced count) (top : Pointer Nat) (fuel : Nat) :
    Repaired (deleteFixUpLoop top (fuel + 1) tree (.node f))
      (path.plug (.join side true f near far)).inorder := by
  refine ⟨_, _, deleteFixUpLoop_exit (.inl stored.red_eq) fuel, (stored.recolor false).whole, ?_, ?_⟩
  · rw [Path.plug_inorder, Path.plug_inorder, ColorTree.inorder_join_color]
  · exact (Path.redBlack_plug ..).mpr ⟨count + 1, fits,
      (ColorTree.balanced_join_black ..).mpr ⟨nearBalanced, farBalanced⟩, fun _ => by simp,
      fun _ => by simp⟩

/-- After a rotation the loop ends at the recorded top, which is already black. -/
theorem deleteFixUpLoop_rotated (stored : Stored tree path shape)
    (settled : path.Settled shape count) (recorded : tree.red top = false) (fuel : Nat) :
    Repaired (deleteFixUpLoop top (fuel + 1) tree top) (path.plug shape).inorder := by
  refine ⟨tree, _, ?_, stored.whole, rfl, (Path.redBlack_plug ..).mpr ⟨count, settled⟩⟩
  rw [deleteFixUpLoop_exit (.inr rfl), Links.setRed_same _ recorded]

/-- Below a black sibling one step either finishes the repair or leaves it to the parent. -/
theorem deleteBlackStep_repaired
    (stored : Stored tree path (.join side color f focus (.join side false w near far)))
    (parent : tree.parent focus.top = .node f) (focusBalanced : focus.Balanced count)
    (nearBalanced : near.Balanced count) (farBalanced : far.Balanced count)
    (fits : path.Fits (if color then count + 1 else count + 2))
    (colors : color = true → path.topRed = false ∧ path ≠ [])
    (recorded : top = .node f ∨ ∀ tree, (path.plug tree).top = top)
    (again : color = false → ∀ next, (ColorTree.join side true w near far).Balanced count →
      Stored next path (.join side false f focus (.join side true w near far)) →
      Repaired (deleteFixUpLoop top (fuel + 1) next (.node f))
        (path.plug (.join side false f focus (.join side true w near far))).inorder) :
    Repaired (deleteFixUpLoop top (fuel + 1) (deleteBlackStep side tree top focus.top (.node w)).1
        (deleteBlackStep side tree top focus.top (.node w)).2)
      (path.plug (.join side color f focus (.join side false w near far))).inorder := by
  by_cases black : near.isRed = false ∧ far.isRed = false
  · obtain ⟨step, painted⟩ := deleteBlackStep_recolor top stored parent black.1 black.2
    have lower := (ColorTree.balanced_join_red side w near far count).mpr
      ⟨black.1, black.2, nearBalanced, farBalanced⟩
    have order : (path.plug (.join side color f focus (.join side false w near far))).inorder =
        (path.plug (.join side color f focus (.join side true w near far))).inorder := by
      rw [Path.plug_inorder, Path.plug_inorder]
      cases side <;> rfl
    rw [step, order]
    cases color with
    | true => exact deleteFixUpLoop_red painted fits focusBalanced lower top fuel
    | false => exact again rfl _ lower painted
  · obtain ⟨next, shape, step, rotated, shade, above, balanced, order⟩ :=
      deleteBlackStep_rotate top stored parent black focusBalanced nearBalanced farBalanced
    have settled : path.Settled shape (if color then count + 1 else count + 2) := by
      refine ⟨fits, balanced, ?_, ?_⟩
      · intro red
        cases color with
        | true => exact absurd (red.symm.trans (colors rfl).1) (by decide)
        | false => exact shade
      · intro empty
        cases color with
        | true => exact absurd empty (colors rfl).2
        | false => exact shade
    have topBlack : next.red top = false := by
      rcases recorded with rfl | recorded
      · exact above
      · rw [← recorded shape, rotated.whole.top_red]
        exact ((Path.redBlack_plug ..).mpr ⟨_, settled⟩).1
    have finished := deleteFixUpLoop_rotated rotated settled topBlack fuel
    rw [step]
    rwa [Path.plug_inorder, order, ← Path.plug_inorder] at finished

/-- A red sibling moves above the parent, and the next sibling is black below a red parent. -/
theorem deleteFixUpSide_redSibling
    (stored : Stored tree path (.join side false f focus (.join side true w near far)))
    (parent : tree.parent focus.top = .node f) (focusBalanced : focus.Balanced count)
    (siblingBalanced : (ColorTree.join side true w near far).Balanced (count + 1))
    (fits : path.Fits (count + 2))
    (recorded : (path.plug (.join side false f focus (.join side true w near far))).top = top) :
    Repaired (deleteFixUpLoop top (fuel + 1) (deleteFixUpSide side tree top focus.top).1
        (deleteFixUpSide side tree top focus.top).2)
      (path.plug (.join side false f focus (.join side true w near far))).inorder := by
  obtain ⟨nearBlack, -, nearBalanced, farBalanced⟩ :=
    (ColorTree.balanced_join_red ..).mp siblingBalanced
  obtain ⟨red, v, inner, outer, rfl⟩ := ColorTree.exists_join side nearBalanced.ne_nil
  obtain rfl : red = false := by simpa using nearBlack
  obtain ⟨innerBalanced, outerBalanced⟩ := (ColorTree.balanced_join_black ..).mp nearBalanced
  obtain ⟨found, rotated, kept⟩ := deleteBlackSibling_red stored parent
  have order : (path.plug (.join side false f focus
        (.join side true w (.join side false v inner outer) far))).inorder =
      (Path.plug (⟨side, false, w, far⟩ :: path) (.join side true f focus
        (.join side false v inner outer))).inorder := by
    simp only [Path.plug, Path.plug_inorder]
    cases side <;> simp [ColorTree.join, ColorTree.inorder]
  rw [deleteFixUpSide]
  dsimp only
  rw [found, order, ColorTree.top_join]
  refine deleteBlackStep_repaired rotated.focusNear kept focusBalanced innerBalanced outerBalanced
    (Path.fits_black.mpr ⟨farBalanced, fits⟩) (fun _ => ⟨rfl, by simp⟩) ?_
    (fun black => absurd black (by decide))
  rw [← recorded]
  rcases Path.plug_top_cases path (.join side false f focus
    (.join side true w (.join side false v inner outer) far)) with first | first
  · exact .inl (first.trans (ColorTree.top_join ..))
  · exact .inr fun tree => first _

/-- A black sibling is ready for the step below it. -/
theorem deleteFixUpSide_blackSibling
    (stored : Stored tree path (.join side color f focus (.join side false w near far)))
    (parent : tree.parent focus.top = .node f) (focusBalanced : focus.Balanced count)
    (siblingBalanced : (ColorTree.join side false w near far).Balanced (count + 1))
    (fits : path.Fits (if color then count + 1 else count + 2))
    (colors : color = true → path.topRed = false ∧ path ≠ [])
    (recorded : (path.plug (.join side color f focus (.join side false w near far))).top = top)
    (again : color = false → ∀ next, (ColorTree.join side true w near far).Balanced count →
      Stored next path (.join side false f focus (.join side true w near far)) →
      Repaired (deleteFixUpLoop top (fuel + 1) next (.node f))
        (path.plug (.join side false f focus (.join side true w near far))).inorder) :
    Repaired (deleteFixUpLoop top (fuel + 1) (deleteFixUpSide side tree top focus.top).1
        (deleteFixUpSide side tree top focus.top).2)
      (path.plug (.join side color f focus (.join side false w near far))).inorder := by
  obtain ⟨nearBalanced, farBalanced⟩ := (ColorTree.balanced_join_black ..).mp siblingBalanced
  have link : tree.child side.flip (tree.parent focus.top) = .node w := by
    rw [parent]
    simpa using stored.far_eq
  rw [deleteFixUpSide, deleteBlackSibling_black link stored.focusFar.red_eq]
  refine deleteBlackStep_repaired stored parent focusBalanced nearBalanced farBalanced fits colors
    ?_ again
  rw [← recorded]
  simpa using Path.plug_top_cases path (.join side color f focus (.join side false w near far))

end Loop

/-- Below a frame the focus is not the top, and a left-child test finds its side. -/
theorem Stored.below_top {tree : Links Nat} {rest : Path Nat} {side other : Side} {color red : Bool}
    {f w : Nat} {focus near far : ColorTree Nat}
    (stored : Stored tree (⟨side, color, f, .join other red w near far⟩ :: rest) focus)
    (parent : tree.parent focus.top = .node f) :
    (Path.plug (⟨side, color, f, .join other red w near far⟩ :: rest) focus).top ≠ focus.top ∧
      (focus.top = tree.child .left (tree.parent focus.top) ↔ side = .left) := by
  have apart := (List.nodup_append.mp stored.distinct).2.2
  constructor
  · obtain ⟨a, mem, first⟩ := Path.top_plug (List.cons_ne_nil
      (⟨side, color, f, .join other red w near far⟩ : Frame Nat) rest)
    rw [first focus]
    intro same
    exact apart a (ColorTree.mem_of_top same.symm) a mem rfl
  · rw [parent]
    apply leftChild_iff stored.holds.1
    rintro frame ⟨⟩ same
    rw [ColorTree.top_join] at same
    exact apart w (ColorTree.mem_of_top same.symm) w (by simp [Path.addresses]) rfl

/-- The deletion loop returns and restores the colors without moving a node in order. -/
theorem deleteFixUpLoop_spec {fuel : Nat} {tree : Links Nat} {path : Path Nat}
    {focus : ColorTree Nat} {count : Nat} {top : Pointer Nat} (stored : Stored tree path focus)
    (fits : path.Fits (count + 1)) (balanced : focus.Balanced count)
    (parent : tree.parent focus.top = path.parent) (recorded : (path.plug focus).top = top)
    (enough : path.length < fuel) :
    Repaired (deleteFixUpLoop top fuel tree focus.top) (path.plug focus).inorder := by
  induction fuel generalizing tree path focus count with
  | zero => omega
  | succ fuel ih =>
      cases path with
      | nil =>
          subst recorded
          exact deleteFixUpLoop_top stored balanced fuel
      | cons frame rest =>
          rcases frame with ⟨side, color, f, sibling⟩
          cases shade : focus.isRed with
          | true =>
              obtain ⟨red, x, near, far, rfl⟩ := ColorTree.exists_join .left
                (show focus ≠ .nil by rintro rfl; cases shade)
              obtain rfl : red = true := by simpa using shade
              have lower := (ColorTree.balanced_join_red ..).mp balanced
              rw [ColorTree.top_join]
              exact deleteFixUpLoop_red stored fits lower.2.2.1 lower.2.2.2 top fuel
          | false =>
              obtain ⟨siblingBalanced, colors, fitsRest⟩ := fits
              obtain ⟨red, w, near, far, rfl⟩ := ColorTree.exists_join side siblingBalanced.ne_nil
              have above := (Stored.focus ..).mp stored
              obtain ⟨below, hangs⟩ := stored.below_top parent
              rw [recorded] at below
              rw [deleteFixUpLoop_step (stored.top_red.trans shade) below hangs]
              obtain ⟨fuel, rfl⟩ : ∃ previous, fuel = previous + 1 :=
                ⟨fuel - 1, by simp at enough; omega⟩
              cases red with
              | true =>
                  obtain rfl : color = false := by
                    cases color with
                    | true => exact absurd (colors rfl).1 (by simp)
                    | false => rfl
                  exact deleteFixUpSide_redSibling above parent balanced siblingBalanced fitsRest
                    recorded
              | false =>
                  refine deleteFixUpSide_blackSibling above parent balanced siblingBalanced fitsRest
                    (fun red => (colors red).2) recorded ?_
                  intro black next lower painted
                  subst black
                  have raised := (ColorTree.balanced_join_black side f focus _ count).mpr
                    ⟨balanced, lower⟩
                  have result := ih painted fitsRest raised (by simpa using painted.parent_eq)
                    ((Path.plug_top_congr rest (by simp)).trans recorded)
                    (by simp at enough; omega)
                  rwa [ColorTree.top_join] at result

end BandwidthLimiter
