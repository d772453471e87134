import BandwidthLimiter.Foundation.ColorTree

namespace Foundation

/-- A pointer names one of the two sentinels or a proper node. -/
inductive Pointer (A : Type) where
  | nil
  | root
  | node (address : A)
  deriving DecidableEq, Repr

/-- The link fields of a heap of tree nodes, one map for each field. -/
structure Links (A : Type) where
  child : Side → Pointer A → Pointer A
  parent : Pointer A → Pointer A
  red : Pointer A → Bool

namespace Links

variable {A : Type} [DecidableEq A]

def setChild (links : Links A) (side : Side) (pointer target : Pointer A) : Links A :=
  { links with child := fun s p => if s = side ∧ p = pointer then target else links.child s p }

def setParent (links : Links A) (pointer target : Pointer A) : Links A :=
  { links with parent := fun p => if p = pointer then target else links.parent p }

def setRed (links : Links A) (pointer : Pointer A) (color : Bool) : Links A :=
  { links with red := fun p => if p = pointer then color else links.red p }

@[simp] theorem setChild_child (links : Links A) (side s : Side) (pointer target p : Pointer A) :
    (links.setChild side pointer target).child s p =
      if s = side ∧ p = pointer then target else links.child s p := rfl

@[simp] theorem setChild_parent (links : Links A) (side : Side) (pointer target : Pointer A) :
    (links.setChild side pointer target).parent = links.parent := rfl

@[simp] theorem setChild_red (links : Links A) (side : Side) (pointer target : Pointer A) :
    (links.setChild side pointer target).red = links.red := rfl

@[simp] theorem setParent_child (links : Links A) (pointer target : Pointer A) :
    (links.setParent pointer target).child = links.child := rfl

@[simp] theorem setParent_parent (links : Links A) (pointer target p : Pointer A) :
    (links.setParent pointer target).parent p =
      if p = pointer then target else links.parent p := rfl

@[simp] theorem setParent_red (links : Links A) (pointer target : Pointer A) :
    (links.setParent pointer target).red = links.red := rfl

@[simp] theorem setRed_child (links : Links A) (pointer : Pointer A) (color : Bool) :
    (links.setRed pointer color).child = links.child := rfl

@[simp] theorem setRed_parent (links : Links A) (pointer : Pointer A) (color : Bool) :
    (links.setRed pointer color).parent = links.parent := rfl

@[simp] theorem setRed_red (links : Links A) (pointer p : Pointer A) (color : Bool) :
    (links.setRed pointer color).red p = if p = pointer then color else links.red p := rfl

/-- Storing the present color changes nothing. -/
theorem setRed_same (links : Links A) {pointer : Pointer A} {color : Bool}
    (present : links.red pointer = color) : links.setRed pointer color = links := by
  rcases links with ⟨child, parent, red⟩
  simp only [setRed, mk.injEq, true_and]
  funext p
  split
  · rename_i same
    rw [same]
    exact present.symm
  · rfl

/-- This function reads the tree below a pointer down to a fixed depth. -/
def readTree {A : Type} (links : Links A) : Nat → Pointer A → ColorTree A
  | depth + 1, .node address =>
      .node (links.red (.node address))
        (readTree links depth (links.child .left (.node address))) address
        (readTree links depth (links.child .right (.node address)))
  | _, _ => .nil

end Links

variable {A : Type}

/-- The pointer to the first node of a tree. -/
def ColorTree.top : ColorTree A → Pointer A
  | nil => .nil
  | node _ _ address _ => .node address

@[simp] theorem ColorTree.top_join (side : Side) (red : Bool) (address : A)
    (near far : ColorTree A) : (join side red address near far).top = .node address := by
  cases side <;> rfl

@[simp] theorem ColorTree.top_node (red : Bool) (left : ColorTree A) (address : A)
    (right : ColorTree A) : (node red left address right).top = .node address := rfl

@[simp] theorem ColorTree.top_nil : (nil : ColorTree A).top = .nil := rfl

@[simp] theorem ColorTree.top_paint [DecidableEq A] (target : A) (color : Bool)
    (tree : ColorTree A) : (tree.paint target color).top = tree.top := by
  cases tree <;> rfl

theorem ColorTree.top_eq_nil {tree : ColorTree A} : tree.top = .nil ↔ tree = nil := by
  cases tree <;> simp [top]

theorem ColorTree.top_ne_root (tree : ColorTree A) : tree.top ≠ .root := by
  cases tree <;> simp [top]

/-- The first node of a tree is one of its nodes. -/
theorem ColorTree.mem_of_top {tree : ColorTree A} {address : A} (top : tree.top = .node address) :
    address ∈ tree.inorder := by
  cases tree with
  | nil => exact absurd top (by simp)
  | node red left first right =>
      obtain rfl : first = address := by simpa [ColorTree.top] using top
      simp [inorder]

/-- The heap stores the tree below the given parent. -/
def Laid (links : Links A) : Pointer A → ColorTree A → Prop
  | _, .nil => True
  | parent, .node red left address right =>
      links.parent (.node address) = parent ∧ links.red (.node address) = red ∧
      links.child .left (.node address) = left.top ∧
      links.child .right (.node address) = right.top ∧
      Laid links (.node address) left ∧ Laid links (.node address) right

theorem laid_join (links : Links A) (parent : Pointer A) (side : Side) (red : Bool) (address : A)
    (near far : ColorTree A) :
    Laid links parent (ColorTree.join side red address near far) ↔
      links.parent (.node address) = parent ∧ links.red (.node address) = red ∧
      links.child side (.node address) = near.top ∧
      links.child side.flip (.node address) = far.top ∧
      Laid links (.node address) near ∧ Laid links (.node address) far := by
  cases side with
  | left => exact Iff.rfl
  | right => simp only [ColorTree.join, Laid, Side.flip]; tauto

/-- The stored tree depends only on the fields of its own nodes. -/
theorem Laid.congr {links next : Links A} {parent : Pointer A} {tree : ColorTree A}
    (laid : Laid links parent tree)
    (child : ∀ a ∈ tree.inorder, ∀ s, next.child s (.node a) = links.child s (.node a))
    (parents : ∀ a ∈ tree.inorder, next.parent (.node a) = links.parent (.node a))
    (red : ∀ a ∈ tree.inorder, next.red (.node a) = links.red (.node a)) :
    Laid next parent tree := by
  induction tree generalizing parent with
  | nil => trivial
  | node color left address right leftHyp rightHyp =>
      simp only [ColorTree.inorder, List.mem_append, List.mem_cons] at child parents red
      obtain ⟨up, shade, leftLink, rightLink, leftLaid, rightLaid⟩ := laid
      refine ⟨?_, ?_, ?_, ?_, ?_, ?_⟩
      · rw [parents address (by simp), up]
      · rw [red address (by simp), shade]
      · rw [child address (by simp), leftLink]
      · rw [child address (by simp), rightLink]
      · exact leftHyp leftLaid (fun a mem => child a (.inl mem)) (fun a mem => parents a (.inl mem))
          (fun a mem => red a (.inl mem))
      · exact rightHyp rightLaid (fun a mem => child a (.inr (.inr mem)))
          (fun a mem => parents a (.inr (.inr mem))) (fun a mem => red a (.inr (.inr mem)))

/-- A subtree moves below another parent when only the parent field of its first node changes. -/
theorem Laid.reparent {links next : Links A} {parent target : Pointer A} {tree : ColorTree A}
    (laid : Laid links parent tree) (nodup : tree.inorder.Nodup)
    (child : ∀ a ∈ tree.inorder, ∀ s, next.child s (.node a) = links.child s (.node a))
    (parents : ∀ a ∈ tree.inorder, .node a ≠ tree.top →
      next.parent (.node a) = links.parent (.node a))
    (moved : ∀ a, tree.top = .node a → next.parent (.node a) = target)
    (red : ∀ a ∈ tree.inorder, next.red (.node a) = links.red (.node a)) :
    Laid next target tree := by
  cases tree with
  | nil => trivial
  | node color left address right =>
      simp only [ColorTree.inorder, List.mem_append, List.mem_cons] at child parents red
      obtain ⟨-, shade, leftLink, rightLink, leftLaid, rightLaid⟩ := laid
      have absent : address ∉ left.inorder ∧ address ∉ right.inorder := by
        simp only [ColorTree.inorder] at nodup
        have unique := List.nodup_middle.mp nodup
        simp only [List.nodup_cons, List.mem_append, not_or] at unique
        exact unique.1
      refine ⟨moved address rfl, ?_, ?_, ?_, ?_, ?_⟩
      · rw [red address (by simp), shade]
      · rw [child address (by simp), leftLink]
      · rw [child address (by simp), rightLink]
      · refine leftLaid.congr (fun a mem => child a (.inl mem)) (fun a mem => ?_)
          (fun a mem => red a (.inl mem))
        exact parents a (.inl mem) (by rintro ⟨⟩; exact absent.1 mem)
      · refine rightLaid.congr (fun a mem => child a (.inr (.inr mem))) (fun a mem => ?_)
          (fun a mem => red a (.inr (.inr mem)))
        exact parents a (.inr (.inr mem)) (by rintro ⟨⟩; exact absent.2 mem)

/-- Painting the heap paints the stored tree. -/
theorem Laid.paint [DecidableEq A] {links : Links A} {parent : Pointer A} {tree : ColorTree A}
    (laid : Laid links parent tree) (target : A) (color : Bool) :
    Laid (links.setRed (.node target) color) parent (tree.paint target color) := by
  induction tree generalizing parent with
  | nil => trivial
  | node shade left address right leftHyp rightHyp =>
      obtain ⟨up, present, leftLink, rightLink, leftLaid, rightLaid⟩ := laid
      refine ⟨up, ?_, by simpa using leftLink, by simpa using rightLink, leftHyp leftLaid,
        rightHyp rightLaid⟩
      simp [present]

/-- The heap determines the stored tree. -/
theorem Laid.readTree {links : Links A} {parent : Pointer A} {tree : ColorTree A}
    (laid : Laid links parent tree) {depth : Nat} (deep : tree.height ≤ depth) :
    links.readTree depth tree.top = tree := by
  induction tree generalizing parent depth with
  | nil => cases depth <;> rfl
  | node color left address right leftHyp rightHyp =>
      obtain ⟨-, shade, leftLink, rightLink, leftLaid, rightLaid⟩ := laid
      cases depth with
      | zero => simp [ColorTree.height] at deep
      | succ depth =>
          simp only [ColorTree.height] at deep
          change ColorTree.node (links.red (.node address)) (links.readTree depth
              (links.child .left (.node address))) address
            (links.readTree depth (links.child .right (.node address))) = _
          rw [shade, leftLink, rightLink, leftHyp leftLaid (by omega), rightHyp rightLaid (by omega)]

namespace Path

/-- The node above the focus, or the root sentinel at the top. -/
def parent : Path A → Pointer A
  | [] => .root
  | frame :: _ => .node frame.address

/-- The child side by which the focus hangs; the root sentinel uses its left link. -/
def side : Path A → Side
  | [] => .left
  | frame :: _ => frame.side

/-- The heap stores every frame of the path, and the focus link holds the given pointer. -/
def Laid (links : Links A) : Path A → Pointer A → Prop
  | [], hole => links.child .left .root = hole
  | frame :: rest, hole =>
      links.parent (.node frame.address) = parent rest ∧
      links.red (.node frame.address) = frame.red ∧
      links.child frame.side (.node frame.address) = hole ∧
      links.child frame.side.flip (.node frame.address) = frame.sibling.top ∧
      Foundation.Laid links (.node frame.address) frame.sibling ∧
      Laid links rest (.node frame.address)

/-- Below a frame, the first node of the whole tree lies on the path. -/
theorem top_plug {path : Path A} (inside : path ≠ []) :
    ∃ a ∈ path.addresses, ∀ tree, (path.plug tree).top = .node a := by
  induction path with
  | nil => exact absurd rfl inside
  | cons frame rest ih =>
      cases rest with
      | nil => exact ⟨frame.address, by simp [addresses], fun tree => ColorTree.top_join ..⟩
      | cons next rest =>
          obtain ⟨a, mem, top⟩ := ih (by simp)
          exact ⟨a, List.mem_cons_of_mem _ (List.mem_append_right _ mem), fun tree => top _⟩

/-- The first node of the whole tree is the focus, or it does not depend on the focus. -/
theorem plug_top_cases (path : Path A) (tree : ColorTree A) :
    (path.plug tree).top = tree.top ∨ ∀ other, (path.plug other).top = (path.plug tree).top := by
  cases path with
  | nil => exact .inl rfl
  | cons frame rest =>
      obtain ⟨a, -, top⟩ := top_plug (List.cons_ne_nil frame rest)
      exact .inr fun other => (top other).trans (top tree).symm

theorem plug_top_congr (path : Path A) {tree other : ColorTree A} (same : other.top = tree.top) :
    (path.plug other).top = (path.plug tree).top := by
  cases path with
  | nil => exact same
  | cons frame rest =>
      obtain ⟨a, -, top⟩ := top_plug (List.cons_ne_nil frame rest)
      exact (top other).trans (top tree).symm

/-- The focus link holds the recorded pointer. -/
theorem Laid.slot {links : Links A} {path : Path A} {hole : Pointer A}
    (laid : Laid links path hole) : links.child path.side path.parent = hole := by
  cases path with
  | nil => exact laid
  | cons frame rest => exact laid.2.2.1

/-- A path owns the root sentinel and its own nodes. -/
def Owns (path : Path A) (pointer : Pointer A) : Prop :=
  pointer = .root ∨ ∃ a ∈ path.addresses, pointer = .node a

/-- A longer path owns more. -/
theorem Owns.cons {path : Path A} {pointer : Pointer A} (owns : path.Owns pointer)
    (frame : Frame A) : Owns (frame :: path) pointer := by
  rcases owns with owns | ⟨a, mem, eq⟩
  · exact .inl owns
  · exact .inr ⟨a, by simp [addresses, mem], eq⟩

theorem Owns.ne_node {path : Path A} {pointer : Pointer A} (owns : path.Owns pointer) {address : A}
    (outside : address ∉ path.addresses) : pointer ≠ .node address := by
  rintro rfl
  rcases owns with owns | ⟨a, mem, ⟨⟩⟩
  · cases owns
  · exact outside mem

theorem owns_parent (path : Path A) : path.Owns path.parent := by
  cases path with
  | nil => exact .inl rfl
  | cons frame rest => exact .inr ⟨frame.address, by simp [addresses], rfl⟩

/-- The stored path depends only on the fields of its own nodes and on the focus link. -/
theorem Laid.rehole {links next : Links A} {path : Path A} {hole target : Pointer A}
    (laid : Laid links path hole) (nodup : path.addresses.Nodup)
    (child : ∀ s p, path.Owns p → ¬(s = path.side ∧ p = path.parent) →
      next.child s p = links.child s p)
    (slot : next.child path.side path.parent = target)
    (parents : ∀ a ∈ path.addresses, next.parent (.node a) = links.parent (.node a))
    (red : ∀ a ∈ path.addresses, next.red (.node a) = links.red (.node a)) :
    Laid next path target := by
  induction path generalizing hole target with
  | nil => exact slot
  | cons frame rest ih =>
      obtain ⟨up, shade, -, siblingLink, siblingLaid, restLaid⟩ := laid
      simp only [addresses, List.nodup_cons, List.mem_append, not_or, List.nodup_append] at nodup
      obtain ⟨⟨notSibling, notRest⟩, siblingNodup, restNodup, apart⟩ := nodup
      simp only [addresses, List.mem_cons, List.mem_append] at parents red
      simp only [Path.side, Path.parent] at child slot
      refine ⟨?_, ?_, slot, ?_, ?_, ?_⟩
      · rw [parents _ (.inl rfl), up]
      · rw [red _ (.inl rfl), shade]
      · rw [child _ _ (.inr ⟨_, by simp [addresses], rfl⟩) (by simp), siblingLink]
      · refine siblingLaid.congr (fun a mem s => ?_) (fun a mem => parents a (.inr (.inl mem)))
          (fun a mem => red a (.inr (.inl mem)))
        refine child s _ (.inr ⟨a, by simp [addresses, mem], rfl⟩) ?_
        rintro ⟨-, ⟨⟩⟩
        exact notSibling mem
      · refine ih restLaid restNodup ?_ ?_ (fun a mem => parents a (.inr (.inr mem)))
          (fun a mem => red a (.inr (.inr mem)))
        · intro s p owns _
          exact child s p (owns.cons _) fun same => owns.ne_node notRest same.2
        · have owns := owns_parent rest
          rw [child _ _ (owns.cons _) (fun same => owns.ne_node notRest same.2), restLaid.slot]

end Path

/-- The heap stores the focus and the path above it. -/
def Holds (links : Links A) (path : Path A) (tree : ColorTree A) : Prop :=
  path.Laid links tree.top ∧ Laid links path.parent tree

/-- Moving the focus to the parent keeps the stored tree. -/
theorem holds_cons (links : Links A) (frame : Frame A) (rest : Path A) (tree : ColorTree A) :
    Holds links (frame :: rest) tree ↔
      Holds links rest (.join frame.side frame.red frame.address tree frame.sibling) := by
  simp only [Holds, Path.Laid, Path.parent, laid_join, ColorTree.top_join]
  tauto

/-- The addresses of the focus and of its path are all different. -/
def Distinct (path : Path A) (tree : ColorTree A) : Prop :=
  (tree.inorder ++ path.addresses).Nodup

theorem distinct_iff (path : Path A) (tree : ColorTree A) :
    Distinct path tree ↔ (path.plug tree).inorder.Nodup :=
  (path.plug_perm tree).nodup_iff.symm

theorem distinct_plug (path : Path A) (tree : ColorTree A) :
    Distinct path tree ↔ Distinct [] (path.plug tree) := by
  rw [distinct_iff, distinct_iff]
  rfl

theorem distinct_cons (frame : Frame A) (rest : Path A) (tree : ColorTree A) :
    Distinct (frame :: rest) tree ↔
      Distinct rest (.join frame.side frame.red frame.address tree frame.sibling) := by
  rw [distinct_iff, distinct_iff]
  rfl

/-- The stored tree is the plugged tree. -/
theorem holds_plug (links : Links A) (path : Path A) (tree : ColorTree A) :
    Holds links path tree ↔ Holds links [] (path.plug tree) := by
  induction path generalizing tree with
  | nil => exact Iff.rfl
  | cons frame rest ih => rw [holds_cons, ih]; rfl

/-- A node at the focus differs from all other stored nodes. -/
structure Apart (path : Path A) (address : A) (near far : ColorTree A) : Prop where
  notNear : address ∉ near.inorder
  notFar : address ∉ far.inorder
  notPath : address ∉ path.addresses
  nearFar : ∀ a ∈ near.inorder, a ∉ far.inorder
  nearPath : ∀ a ∈ near.inorder, a ∉ path.addresses
  farPath : ∀ a ∈ far.inorder, a ∉ path.addresses
  near : near.inorder.Nodup
  far : far.inorder.Nodup
  path : path.addresses.Nodup

theorem Apart.symm {path : Path A} {address : A} {near far : ColorTree A}
    (apart : Apart path address near far) : Apart path address far near where
  notNear := apart.notFar
  notFar := apart.notNear
  notPath := apart.notPath
  nearFar a mem other := apart.nearFar a other mem
  nearPath := apart.farPath
  farPath := apart.nearPath
  near := apart.far
  far := apart.near
  path := apart.path

theorem distinct_join {path : Path A} {side : Side} {red : Bool} {address : A}
    {near far : ColorTree A} :
    Distinct path (.join side red address near far) ↔ Apart path address near far := by
  have perm := (ColorTree.inorder_join_perm side red address near far).append_right path.addresses
  rw [Distinct, perm.nodup_iff]
  simp only [List.cons_append, List.nodup_cons, List.mem_append, not_or, List.nodup_append]
  constructor
  · rintro ⟨⟨⟨h1, h2⟩, h3⟩, ⟨h4, h5, h6⟩, h7, h8⟩
    exact ⟨h1, h2, h3, fun a mem other => h6 a mem a other rfl,
      fun a mem other => h8 a (.inl mem) a other rfl,
      fun a mem other => h8 a (.inr mem) a other rfl, h4, h5, h7⟩
  · rintro ⟨h1, h2, h3, h4, h5, h6, h7, h8, h9⟩
    refine ⟨⟨⟨h1, h2⟩, h3⟩, ⟨h7, h8, ?_⟩, h9, ?_⟩
    · rintro a mem b other rfl
      exact h4 a mem other
    · rintro a (mem | mem) b other rfl
      · exact h5 a mem other
      · exact h6 a mem other

theorem apart_of_nodup {side : Side} {red : Bool} {address : A} {near far : ColorTree A}
    (nodup : (ColorTree.join side red address near far).inorder.Nodup) : Apart [] address near far := by
  apply distinct_join.mp
  simpa [Distinct, Path.addresses] using nodup

/-- Painting a node at or below the focus keeps the stored path. -/
theorem Holds.paint [DecidableEq A] {links : Links A} {path : Path A} {tree : ColorTree A}
    (holds : Holds links path tree) (distinct : Distinct path tree) (target : A) (color : Bool)
    (inside : target ∈ tree.inorder) :
    Holds (links.setRed (.node target) color) path (tree.paint target color) := by
  have apart := List.nodup_append.mp distinct
  refine ⟨?_, holds.2.paint target color⟩
  refine holds.1.rehole apart.2.1 (fun _ _ _ _ => rfl) ?_ (fun _ _ => rfl) ?_
  · rw [ColorTree.top_paint]
    exact holds.1.slot
  · intro a mem
    have different : a ≠ target := fun same => apart.2.2 target inside a mem same.symm
    simp [different]

/-- A pointer that starts a proper stored tree. -/
theorem Holds.child_eq {links : Links A} {path : Path A} {side : Side} {red : Bool} {address : A}
    {near far : ColorTree A} (holds : Holds links path (.join side red address near far)) :
    links.parent (.node address) = path.parent ∧ links.red (.node address) = red ∧
      links.child side (.node address) = near.top ∧
      links.child side.flip (.node address) = far.top := by
  have laid := (laid_join ..).mp holds.2
  exact ⟨laid.1, laid.2.1, laid.2.2.1, laid.2.2.2.1⟩

end Foundation
