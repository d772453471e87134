import Mathlib.Algebra.Group.Nat.Defs
import Mathlib.Data.List.Nodup
import Mathlib.Data.Nat.Log
import Mathlib.Tactic.Common

namespace Foundation

/-- A node has one child link on each side. -/
inductive Side where
  | left
  | right
  deriving DecidableEq, Repr

def Side.flip : Side → Side
  | .left => .right
  | .right => .left

@[simp] theorem Side.flip_flip (side : Side) : side.flip.flip = side := by
  cases side <;> rfl

@[simp] theorem Side.flip_ne (side : Side) : side.flip ≠ side := by
  cases side <;> decide

@[simp] theorem Side.ne_flip (side : Side) : side ≠ side.flip := by
  cases side <;> decide

/-- Two sides are equal or opposite. -/
theorem Side.eq_or_flip (side other : Side) : other = side ∨ other = side.flip := by
  cases side <;> cases other <;> simp [flip]

/-- A colored binary tree names the address of each node. -/
inductive ColorTree (A : Type) where
  | nil
  | node (red : Bool) (left : ColorTree A) (address : A) (right : ColorTree A)

namespace ColorTree

variable {A : Type}

/-- This node has its first subtree on the given side. -/
def join (side : Side) (red : Bool) (address : A) (near far : ColorTree A) : ColorTree A :=
  match side with
  | .left => node red near address far
  | .right => node red far address near

def inorder : ColorTree A → List A
  | nil => []
  | node _ left address right => left.inorder ++ address :: right.inorder

/-- The order that visits every node after both of its subtrees. -/
def postorder : ColorTree A → List A
  | nil => []
  | node _ left address right => left.postorder ++ right.postorder ++ [address]

def isRed : ColorTree A → Bool
  | nil => false
  | node red _ _ _ => red

def size (tree : ColorTree A) : Nat := tree.inorder.length

/-- The height counts the nodes of a longest downward path. -/
def height : ColorTree A → Nat
  | nil => 0
  | node _ left _ right => max left.height right.height + 1

/-- The coloring discipline with a fixed number of black nodes on every downward path. -/
def Balanced : ColorTree A → Nat → Prop
  | nil, count => count = 0
  | node true left _ right, count =>
      left.isRed = false ∧ right.isRed = false ∧ left.Balanced count ∧ right.Balanced count
  | node false _ _ _, 0 => False
  | node false left _ right, count + 1 => left.Balanced count ∧ right.Balanced count

/-- A whole tree is balanced and starts with a black node. -/
def RedBlack (tree : ColorTree A) : Prop :=
  tree.isRed = false ∧ ∃ count, tree.Balanced count

/-- Blackening sets the color of the first node. -/
def blacken : ColorTree A → ColorTree A
  | nil => nil
  | node _ left address right => node false left address right

/-- Painting sets the color of one address. -/
def paint [DecidableEq A] (target : A) (color : Bool) : ColorTree A → ColorTree A
  | nil => nil
  | node red left address right =>
      node (if address = target then color else red) (left.paint target color) address
        (right.paint target color)

@[simp] theorem isRed_join (side : Side) (red : Bool) (address : A) (near far : ColorTree A) :
    (join side red address near far).isRed = red := by
  cases side <;> rfl

/-- Reading a node from the other side exchanges its subtrees. -/
theorem join_flip (side : Side) (red : Bool) (address : A) (near far : ColorTree A) :
    join side.flip red address near far = join side red address far near := by
  cases side <;> rfl

/-- A node seen from one side is a node seen from any side. -/
theorem join_from (side other : Side) (red : Bool) (address : A) (near far : ColorTree A) :
    ∃ first second, join other red address near far = join side red address first second := by
  rcases Side.eq_or_flip side other with rfl | rfl
  · exact ⟨near, far, rfl⟩
  · exact ⟨far, near, join_flip ..⟩

/-- Every proper tree is a node seen from either side. -/
theorem exists_join (side : Side) {tree : ColorTree A} (proper : tree ≠ nil) :
    ∃ red address near far, tree = join side red address near far := by
  cases tree with
  | nil => exact absurd rfl proper
  | node red left address right =>
      cases side with
      | left => exact ⟨red, address, left, right, rfl⟩
      | right => exact ⟨red, address, right, left, rfl⟩

theorem inorder_join_perm (side : Side) (red : Bool) (address : A) (near far : ColorTree A) :
    (join side red address near far).inorder.Perm (address :: (near.inorder ++ far.inorder)) := by
  cases side with
  | left => exact List.perm_middle
  | right => exact List.perm_middle.trans (List.perm_append_comm.cons _)

theorem postorder_perm (tree : ColorTree A) : tree.postorder.Perm tree.inorder := by
  induction tree with
  | nil => exact List.Perm.refl _
  | node red left address right leftHyp rightHyp =>
      have moved : (left.postorder ++ (right.postorder ++ [address])).Perm
          (left.inorder ++ (address :: right.inorder)) :=
        leftHyp.append ((List.perm_append_singleton ..).trans (rightHyp.cons address))
      simpa [postorder, inorder] using moved

@[simp] theorem mem_join (side : Side) (red : Bool) (address other : A) (near far : ColorTree A) :
    other ∈ (join side red address near far).inorder ↔
      other = address ∨ other ∈ near.inorder ∨ other ∈ far.inorder := by
  rw [(inorder_join_perm side red address near far).mem_iff]
  simp

@[simp] theorem paint_join [DecidableEq A] (target : A) (color : Bool) (side : Side) (red : Bool)
    (address : A) (near far : ColorTree A) :
    (join side red address near far).paint target color =
      join side (if address = target then color else red) address (near.paint target color)
        (far.paint target color) := by
  cases side <;> rfl

/-- Painting an absent address changes nothing. -/
theorem paint_absent [DecidableEq A] {target : A} (color : Bool) {tree : ColorTree A}
    (absent : target ∉ tree.inorder) : tree.paint target color = tree := by
  induction tree with
  | nil => rfl
  | node red left address right leftHyp rightHyp =>
      simp only [inorder, List.mem_append, List.mem_cons, not_or] at absent
      obtain ⟨inLeft, different, inRight⟩ := absent
      simp [paint, leftHyp inLeft, rightHyp inRight, Ne.symm different]

theorem balanced_join_red (side : Side) (address : A) (near far : ColorTree A) (count : Nat) :
    (join side true address near far).Balanced count ↔
      near.isRed = false ∧ far.isRed = false ∧ near.Balanced count ∧ far.Balanced count := by
  cases side with
  | left => exact Iff.rfl
  | right => simp only [join, Balanced]; tauto

theorem balanced_join_black (side : Side) (address : A) (near far : ColorTree A) (count : Nat) :
    (join side false address near far).Balanced (count + 1) ↔
      near.Balanced count ∧ far.Balanced count := by
  cases side with
  | left => exact Iff.rfl
  | right => exact And.comm

theorem inorder_join_color (side : Side) (red color : Bool) (address : A)
    (near far : ColorTree A) :
    (join side red address near far).inorder = (join side color address near far).inorder := by
  cases side <;> rfl

@[simp] theorem inorder_blacken (tree : ColorTree A) : tree.blacken.inorder = tree.inorder := by
  cases tree <;> rfl

theorem isRed_blacken (tree : ColorTree A) : tree.blacken.isRed = false := by
  cases tree <;> rfl

/-- A black start makes any balanced tree red-black. -/
theorem Balanced.blacken {tree : ColorTree A} {count : Nat} (balanced : tree.Balanced count) :
    tree.blacken.RedBlack := by
  refine ⟨tree.isRed_blacken, ?_⟩
  cases tree with
  | nil => exact ⟨count, balanced⟩
  | node red left address right =>
      cases red with
      | true => exact ⟨count + 1, balanced.2.2⟩
      | false => exact ⟨count, balanced⟩

/-- A positive black count excludes the empty tree. -/
theorem Balanced.ne_nil {tree : ColorTree A} {count : Nat} (balanced : tree.Balanced (count + 1)) :
    tree ≠ nil := by
  rintro rfl
  exact absurd balanced (Nat.succ_ne_zero count)

/-- A black node takes one from the black count. -/
theorem Balanced.black_count {side : Side} {address : A} {near far : ColorTree A} {count : Nat}
    (balanced : (join side false address near far).Balanced count) :
    ∃ previous, count = previous + 1 ∧ near.Balanced previous ∧ far.Balanced previous := by
  cases count with
  | zero => cases side <;> exact balanced.elim
  | succ previous => exact ⟨previous, rfl, (balanced_join_black ..).mp balanced⟩

/-- The black count forces exponentially many nodes. -/
theorem Balanced.pow_le_size {tree : ColorTree A} {count : Nat} (balanced : tree.Balanced count) :
    2 ^ count ≤ tree.size + 1 := by
  induction tree generalizing count with
  | nil => simp [show count = 0 from balanced]
  | node red left address right leftHyp rightHyp =>
      have total : (node red left address right).size = left.size + right.size + 1 := by
        simp [size, inorder]; omega
      cases red with
      | true =>
          have grown := leftHyp balanced.2.2.1
          omega
      | false =>
          cases count with
          | zero => exact balanced.elim
          | succ count =>
              have leftGrown := leftHyp balanced.1
              have rightGrown := rightHyp balanced.2
              rw [Nat.pow_succ]
              omega

/-- No downward path is longer than twice the black count, plus one below a red start. -/
theorem Balanced.height_le {tree : ColorTree A} {count : Nat} (balanced : tree.Balanced count) :
    tree.height ≤ 2 * count + tree.isRed.toNat := by
  induction tree generalizing count with
  | nil => simp [height]
  | node red left address right leftHyp rightHyp =>
      cases red with
      | true =>
          obtain ⟨leftBlack, rightBlack, leftBalanced, rightBalanced⟩ := balanced
          have leftBound := leftHyp leftBalanced
          have rightBound := rightHyp rightBalanced
          simp only [leftBlack, rightBlack, Bool.toNat_false] at leftBound rightBound
          simp only [height, isRed, Bool.toNat_true]
          omega
      | false =>
          cases count with
          | zero => exact balanced.elim
          | succ count =>
              have leftBound := leftHyp balanced.1
              have rightBound := rightHyp balanced.2
              have leftColor := left.isRed.toNat_le
              have rightColor := right.isRed.toNat_le
              simp only [height, isRed, Bool.toNat_false]
              omega

/-- A red-black tree has logarithmic height. -/
theorem RedBlack.height_le_log {tree : ColorTree A} (redBlack : tree.RedBlack) :
    tree.height ≤ 2 * Nat.log 2 (tree.size + 1) := by
  obtain ⟨black, count, balanced⟩ := redBlack
  have bound := balanced.height_le
  have exponent : count ≤ Nat.log 2 (tree.size + 1) :=
    Nat.le_log_of_pow_le (by decide) balanced.pow_le_size
  simp only [black, Bool.toNat_false] at bound
  omega

theorem height_le_size (tree : ColorTree A) : tree.height ≤ tree.size := by
  induction tree with
  | nil => exact Nat.zero_le _
  | node red left address right leftHyp rightHyp =>
      simp only [height, size, inorder, List.length_append, List.length_cons] at *
      omega

end ColorTree

/-- A frame records one node above the focus and the subtree on its other side. -/
structure Frame (A : Type) where
  side : Side
  red : Bool
  address : A
  sibling : ColorTree A

/-- A path lists the frames from the focus up to the top of the tree. -/
abbrev Path (A : Type) := List (Frame A)

namespace Path

variable {A : Type}

/-- This operation puts a subtree back at the focus. -/
def plug : Path A → ColorTree A → ColorTree A
  | [], tree => tree
  | frame :: rest, tree =>
      plug rest (ColorTree.join frame.side frame.red frame.address tree frame.sibling)

/-- The nodes that precede the focus in order. -/
def before : Path A → List A
  | [] => []
  | frame :: rest =>
      match frame.side with
      | .left => before rest
      | .right => before rest ++ (frame.sibling.inorder ++ [frame.address])

/-- The nodes that follow the focus in order. -/
def after : Path A → List A
  | [] => []
  | frame :: rest =>
      match frame.side with
      | .left => frame.address :: frame.sibling.inorder ++ after rest
      | .right => after rest

def addresses : Path A → List A
  | [] => []
  | frame :: rest => frame.address :: (frame.sibling.inorder ++ addresses rest)

/-- The color of the node above the focus; the place above the top counts as black. -/
def topRed : Path A → Bool
  | [] => false
  | frame :: _ => frame.red

/-- The path completes any balanced focus with the given black count. -/
def Fits : Path A → Nat → Prop
  | [], _ => True
  | frame :: rest, count =>
      frame.sibling.Balanced count ∧
      (frame.red = true → frame.sibling.isRed = false ∧ topRed rest = false ∧ rest ≠ []) ∧
      Fits rest (if frame.red then count else count + 1)

/-- The focus and its path keep the coloring discipline together. -/
structure Settled (path : Path A) (tree : ColorTree A) (count : Nat) : Prop where
  fits : Fits path count
  balanced : tree.Balanced count
  underRed : topRed path = true → tree.isRed = false
  atTop : path = [] → tree.isRed = false

section BlackFrame

variable {side : Side} {address : A} {sibling : ColorTree A} {rest : Path A} {count : Nat}

/-- A black frame asks for a sibling with the same black count and adds one black node. -/
theorem fits_black : Fits (⟨side, false, address, sibling⟩ :: rest) count ↔
    sibling.Balanced count ∧ Fits rest (count + 1) := by
  simp [Fits]

/-- Below a black frame the focus may have any color. -/
theorem settled_black {tree : ColorTree A}
    (fits : Fits (⟨side, false, address, sibling⟩ :: rest) count) (balanced : tree.Balanced count) :
    Settled (⟨side, false, address, sibling⟩ :: rest) tree count :=
  ⟨fits, balanced, nofun, nofun⟩

end BlackFrame

theorem plug_inorder (path : Path A) (tree : ColorTree A) :
    (plug path tree).inorder = before path ++ tree.inorder ++ after path := by
  induction path generalizing tree with
  | nil => simp [plug, before, after]
  | cons frame rest ih =>
      rcases frame with ⟨side, red, address, sibling⟩
      cases side <;> simp [plug, before, after, ih, ColorTree.join, ColorTree.inorder]

theorem plug_perm (path : Path A) (tree : ColorTree A) :
    (plug path tree).inorder.Perm (tree.inorder ++ addresses path) := by
  induction path generalizing tree with
  | nil => simp [plug, addresses]
  | cons frame rest ih =>
      apply (ih _).trans
      apply ((ColorTree.inorder_join_perm ..).append_right _).trans
      have moved : (tree.inorder ++ frame.address :: (frame.sibling.inorder ++ addresses rest)).Perm
          (frame.address :: (tree.inorder ++ (frame.sibling.inorder ++ addresses rest))) :=
        List.perm_middle
      simpa [addresses] using moved.symm

/-- The tree below the plug is red-black exactly when the focus and the path agree. -/
theorem redBlack_plug (path : Path A) (tree : ColorTree A) :
    (plug path tree).RedBlack ↔ ∃ count, Settled path tree count := by
  induction path generalizing tree with
  | nil =>
      constructor
      · rintro ⟨black, count, balanced⟩
        exact ⟨count, trivial, balanced, nofun, fun _ => black⟩
      · rintro ⟨count, settled⟩
        exact ⟨settled.atTop rfl, count, settled.balanced⟩
  | cons frame rest ih =>
      rcases frame with ⟨side, red, address, sibling⟩
      simp only [plug]
      rw [ih]
      cases red with
      | true =>
          constructor
          · rintro ⟨count, fits, balanced, underRed, atTop⟩
            obtain ⟨black, siblingBlack, focus, siblingBalanced⟩ :=
              (ColorTree.balanced_join_red ..).mp balanced
            refine ⟨count, ⟨siblingBalanced, fun _ => ⟨siblingBlack, ?_, ?_⟩, fits⟩, focus,
              fun _ => black, fun _ => black⟩
            · by_contra topRed
              exact absurd (underRed (by simpa using topRed)) (by simp)
            · intro top
              exact absurd (atTop top) (by simp)
          · rintro ⟨count, ⟨siblingBalanced, colors, fits⟩, focus, underRed, -⟩
            obtain ⟨siblingBlack, topBlack, inside⟩ := colors rfl
            refine ⟨count, fits, ?_, ?_, fun top => absurd top inside⟩
            · exact (ColorTree.balanced_join_red ..).mpr
                ⟨underRed rfl, siblingBlack, focus, siblingBalanced⟩
            · intro topRed
              exact absurd (topRed.symm.trans topBlack) (by decide)
      | false =>
          constructor
          · rintro ⟨count, fits, balanced, -, -⟩
            obtain ⟨previous, rfl, focus, siblingBalanced⟩ := balanced.black_count
            exact ⟨previous, settled_black (fits_black.mpr ⟨siblingBalanced, fits⟩) focus⟩
          · rintro ⟨count, ⟨siblingBalanced, -, fits⟩, focus, -, -⟩
            exact ⟨count + 1, fits, (ColorTree.balanced_join_black ..).mpr ⟨focus, siblingBalanced⟩,
              fun _ => ColorTree.isRed_join .., fun _ => ColorTree.isRed_join ..⟩

/-- Every node of a tree can be brought into focus. -/
theorem exists_plug (path : Path A) {tree : ColorTree A} {address : A}
    (mem : address ∈ tree.inorder) :
    ∃ path' red left right, plug path' (.node red left address right) = plug path tree := by
  induction tree generalizing path with
  | nil => cases mem
  | node red left first right leftHyp rightHyp =>
      rcases List.mem_append.mp mem with inLeft | rest
      · exact leftHyp (⟨.left, red, first, right⟩ :: path) inLeft
      · rcases List.mem_cons.mp rest with rfl | inRight
        · exact ⟨path, red, left, right, rfl⟩
        · exact rightHyp (⟨.right, red, first, left⟩ :: path) inRight

/-- A node that occurs once comes into focus between the nodes before it and those after it. -/
theorem exists_plug_between {tree : ColorTree A} {address : A} {front back : List A}
    (nodup : tree.inorder.Nodup) (order : tree.inorder = front ++ address :: back) :
    ∃ path red left right, plug path (.node red left address right) = tree ∧
      front = path.before ++ left.inorder ∧ back = right.inorder ++ path.after := by
  obtain ⟨path, red, left, right, plugged⟩ := exists_plug []
    (show address ∈ tree.inorder by simp [order])
  simp only [plug] at plugged
  have around : tree.inorder =
      (path.before ++ left.inorder) ++ address :: (right.inorder ++ path.after) := by
    rw [← plugged, plug_inorder]
    simp [ColorTree.inorder]
  rw [order] at nodup around
  have unique := (List.nodup_cons.mp (List.nodup_middle.mp nodup)).1
  rw [List.mem_append, not_or] at unique
  obtain ⟨before, -, after⟩ := (List.append_cons_inj_of_notMem unique.1 unique.2).mp around
  exact ⟨path, red, left, right, plugged, before, after⟩

/-- The coloring discipline does not read the addresses. -/
theorem redBlack_rename (path : Path A) (red : Bool) (left right : ColorTree A) (x y : A) :
    (plug path (.node red left x right)).RedBlack ↔ (plug path (.node red left y right)).RedBlack := by
  have same (count : Nat) : (ColorTree.node red left x right).Balanced count ↔
      (ColorTree.node red left y right).Balanced count := by
    cases red <;> cases count <;> exact Iff.rfl
  rw [redBlack_plug, redBlack_plug]
  constructor
  · rintro ⟨count, settled⟩
    exact ⟨count, settled.fits, (same count).mp settled.balanced, settled.underRed, settled.atTop⟩
  · rintro ⟨count, settled⟩
    exact ⟨count, settled.fits, (same count).mpr settled.balanced, settled.underRed, settled.atTop⟩

theorem size_le_size (path : Path A) (tree : ColorTree A) : tree.size ≤ (plug path tree).size := by
  rw [ColorTree.size, ColorTree.size, (plug_perm path tree).length_eq, List.length_append]
  omega

theorem length_le_size (path : Path A) (tree : ColorTree A) :
    path.length ≤ (plug path tree).size := by
  rw [ColorTree.size, (plug_perm path tree).length_eq]
  induction path with
  | nil => exact Nat.zero_le _
  | cons frame rest ih =>
      simp only [addresses, List.length_append, List.length_cons] at *
      omega

theorem length_add_height_le (path : Path A) (tree : ColorTree A) :
    path.length + tree.height ≤ (plug path tree).height := by
  induction path generalizing tree with
  | nil => simp [plug]
  | cons frame rest ih =>
      have above := ih (ColorTree.join frame.side frame.red frame.address tree frame.sibling)
      have lower : tree.height + 1 ≤
          (ColorTree.join frame.side frame.red frame.address tree frame.sibling).height := by
        cases frame.side <;> simp only [ColorTree.join, ColorTree.height] <;> omega
      rw [plug, List.length_cons]
      omega

end Path

end Foundation
