import BandwidthLimiter.Foundation.Run
import BandwidthLimiter.Tree.Delete
import BandwidthLimiter.Tree.Query
import BandwidthLimiter.Tree.RbTreeHelper

namespace BandwidthLimiter
open Foundation

variable {K V : Type}

/-- The nodes that the child links reach below the root sentinel. -/
inductive InTree (tree : Links Nat) : Nat → Prop where
  | top {a : Nat} (link : tree.child .left .root = .node a) : InTree tree a
  | child {a b : Nat} {side : Side} (above : InTree tree a)
      (link : tree.child side (.node a) = .node b) : InTree tree b

/-- The downward paths from a pointer to the nil sentinel. -/
inductive DownPath (tree : Links Nat) : Pointer Nat → List Nat → Prop where
  | nil : DownPath tree .nil []
  | node {a : Nat} {side : Side} {rest : List Nat}
      (below : DownPath tree (tree.child side (.node a)) rest) :
      DownPath tree (.node a) (a :: rest)

/-- The operations of a client of the tree together with their results. -/
inductive TreeEvent (K V : Type) where
  | insert (key : K) (info : V) (node : Pointer Nat)
  | delete (node : Nat) (destroyed : List (Destroy K V))
  | query (q : K) (answer : Option (Pointer Nat))

/-- A client deletes only nodes that are in the tree. -/
inductive TreeStep (compare : K → K → Int) :
    RedBlackTreeStruct K V → TreeEvent K V → RedBlackTreeStruct K V → Prop where
  | insert {tree next : RedBlackTreeStruct K V} {key : K} {info : V} {node : Pointer Nat}
      (done : rbTreeInsert compare tree key info = some (next, node)) :
      TreeStep compare tree (.insert key info node) next
  | delete {tree next : RedBlackTreeStruct K V} {z : Nat} {destroyed : List (Destroy K V)}
      (inside : InTree tree.toLinks z) (done : rbDelete tree (.node z) = some (next, destroyed)) :
      TreeStep compare tree (.delete z destroyed) next
  | query {tree : RedBlackTreeStruct K V} {q : K} {answer : Option (Pointer Nat)}
      (done : rbExactQuery compare (some tree) q = some answer) :
      TreeStep compare tree (.query q answer) tree

section Shape

variable {comparison : Comparison K} {tree : RedBlackTreeStruct K V} {shape : ColorTree Nat}

/-- The links below a stored top reach all of its nodes. -/
theorem InTree.of_laid {links : Links Nat} {parent : Pointer Nat} {shape : ColorTree Nat}
    (laid : Laid links parent shape) (top : ∀ a, shape.top = .node a → InTree links a) {a : Nat}
    (mem : a ∈ shape.inorder) : InTree links a := by
  induction shape generalizing parent with
  | nil => cases mem
  | node red left x right leftHyp rightHyp =>
      obtain ⟨-, -, leftLink, rightLink, leftLaid, rightLaid⟩ := laid
      have above := top x rfl
      rcases List.mem_append.mp mem with inLeft | rest
      · exact leftHyp leftLaid (fun b first => above.child (leftLink.trans first)) inLeft
      · rcases List.mem_cons.mp rest with rfl | inRight
        · exact above
        · exact rightHyp rightLaid (fun b first => above.child (rightLink.trans first)) inRight

/-- The child of a stored node is the top of one of its subtrees. -/
theorem Stored.child_mem {links : Links Nat} (stored : Stored links [] shape) {a b : Nat} {side : Side}
    (mem : a ∈ shape.inorder) (link : links.child side (.node a) = .node b) :
    b ∈ shape.inorder := by
  obtain ⟨path, red, left, right, plugged⟩ := Path.exists_plug [] mem
  simp only [Path.plug] at plugged
  subst plugged
  obtain ⟨-, -, leftLink, rightLink, -, -⟩ := stored.atFocus.holds.2
  rw [Path.plug_inorder]
  cases side with
  | left => simp [ColorTree.inorder, ColorTree.mem_of_top (leftLink.symm.trans link)]
  | right => simp [ColorTree.inorder, ColorTree.mem_of_top (rightLink.symm.trans link)]

/-- The links reach exactly the stored nodes. -/
theorem Stored.inTree_iff {links : Links Nat} (stored : Stored links [] shape) (a : Nat) :
    InTree links a ↔ a ∈ shape.inorder := by
  have top : links.child .left .root = shape.top := stored.holds.1
  constructor
  · intro reached
    induction reached with
    | top link => exact ColorTree.mem_of_top (top.symm.trans link)
    | child _ link ih => exact stored.child_mem ih link
  · exact InTree.of_laid stored.holds.2 fun b first => .top (top.trans first)

/-- A stored downward path is no longer than the height. -/
theorem DownPath.length_le {links : Links Nat} {parent : Pointer Nat} {shape : ColorTree Nat}
    (laid : Laid links parent shape) {path : List Nat} (down : DownPath links shape.top path) :
    path.length ≤ shape.height := by
  induction shape generalizing parent path with
  | nil => cases down; exact Nat.zero_le _
  | node red left x right leftHyp rightHyp =>
      obtain ⟨-, -, leftLink, rightLink, leftLaid, rightLaid⟩ := laid
      cases down with
      | node below =>
          rename_i side rest
          simp only [List.length_cons, ColorTree.height]
          cases side with
          | left =>
              have short := leftHyp leftLaid (leftLink ▸ below)
              omega
          | right =>
              have short := rightHyp rightLaid (rightLink ▸ below)
              omega

/-- Every downward path through a balanced tree has the same number of black nodes. -/
theorem DownPath.black_count {links : Links Nat} {parent : Pointer Nat} {shape : ColorTree Nat}
    {count : Nat} (laid : Laid links parent shape) (balanced : shape.Balanced count)
    {path : List Nat} (down : DownPath links shape.top path) :
    path.countP (fun a => !links.red (.node a)) = count := by
  induction shape generalizing parent path count with
  | nil => cases down; exact (show count = 0 from balanced).symm
  | node red left x right leftHyp rightHyp =>
      obtain ⟨-, shade, leftLink, rightLink, leftLaid, rightLaid⟩ := laid
      cases down with
      | node below =>
          rename_i side rest
          have rest_count (previous : Nat) (leftBalanced : left.Balanced previous)
              (rightBalanced : right.Balanced previous) :
              rest.countP (fun a => !links.red (.node a)) = previous := by
            cases side with
            | left => exact leftHyp leftLaid leftBalanced (leftLink ▸ below)
            | right => exact rightHyp rightLaid rightBalanced (rightLink ▸ below)
          cases red with
          | true => simp [shade, rest_count count balanced.2.2.1 balanced.2.2.2]
          | false =>
              cases count with
              | zero => exact balanced.elim
              | succ previous =>
                  simp [shade, rest_count previous balanced.1 balanced.2]

/-- No red node of a red-black tree has a red child. -/
theorem Stored.red_child {links : Links Nat} (stored : Stored links [] shape)
    (redBlack : shape.RedBlack) {a : Nat} (mem : a ∈ shape.inorder)
    (red : links.red (.node a) = true) (side : Side) :
    links.red (links.child side (.node a)) = false := by
  obtain ⟨path, color, left, right, plugged⟩ := Path.exists_plug [] mem
  simp only [Path.plug] at plugged
  subst plugged
  have joined : Stored links path (.join .left color a left right) := stored.atFocus
  obtain ⟨count, settled⟩ := (Path.redBlack_plug ..).mp redBlack
  obtain rfl : color = true := joined.red_eq.symm.trans red
  obtain ⟨leftBlack, rightBlack, -, -⟩ := settled.balanced
  cases side with
  | left => rw [joined.near_eq, joined.focusNear.top_red, leftBlack]
  | right => rw [show Side.right = Side.left.flip from rfl, joined.far_eq, joined.focusFar.top_red,
      rightBlack]

end Shape

/-- The red-black discipline as the pointer structure shows it. -/
structure RedBlackInvariant (comparison : Comparison K) (tree : RedBlackTreeStruct K V)
    (shape : ColorTree Nat) : Prop where
  top : tree.child .left .root = shape.top
  laid : Laid tree.toLinks .root shape
  nodup : shape.inorder.Nodup
  keys : ∀ a ∈ shape.inorder, (tree.key (.node a)).isSome
  sorted : comparison.Sorted (fun a => tree.key (.node a)) shape.inorder
  topBlack : tree.red (tree.child .left .root) = false
  nilBlack : tree.red .nil = false
  rootBlack : tree.red .root = false
  redChild : ∀ a, InTree tree.toLinks a → tree.red (.node a) = true →
    ∀ side, tree.red (tree.child side (.node a)) = false
  blackCount : ∃ count, ∀ path, DownPath tree.toLinks (tree.child .left .root) path →
    path.countP (fun a => !tree.red (.node a)) = count
  rootRight : tree.child .right .root = .nil
  height : ∀ path, DownPath tree.toLinks (tree.child .left .root) path →
    path.length ≤ 2 * Nat.log 2 (shape.inorder.length + 1)

/-- A well-formed tree shows the discipline. -/
theorem WellFormed.redBlackInvariant {comparison : Comparison K} {tree : RedBlackTreeStruct K V}
    {shape : ColorTree Nat} (wellFormed : WellFormed comparison tree shape) :
    RedBlackInvariant comparison tree shape := by
  have stored := wellFormed.stored
  have laid := stored.holds.2
  have top := wellFormed.top_eq
  obtain ⟨black, count, balanced⟩ := wellFormed.redBlack
  refine ⟨top, laid, wellFormed.nodup, fun a => (wellFormed.keys a).mpr, wellFormed.sorted, ?_,
    stored.sentinels.nilBlack, stored.sentinels.rootBlack, ?_, ⟨count, ?_⟩,
    stored.sentinels.rootRight, ?_⟩
  · rw [top, stored.top_red, black]
  · intro a inside
    exact stored.red_child wellFormed.redBlack ((stored.inTree_iff a).mp inside)
  · rw [top]
    exact fun path down => down.black_count laid balanced
  · rw [top]
    exact fun path down => (down.length_le laid).trans wellFormed.redBlack.height_le_log

variable {comparison : Comparison K} {events : List (TreeEvent K V)}
  {tree : RedBlackTreeStruct K V}

/-- Every step of a client keeps the tree well formed. -/
theorem TreeStep.wellFormed {next : RedBlackTreeStruct K V} {event : TreeEvent K V}
    (kept : ∃ shape, WellFormed comparison tree shape)
    (taken : TreeStep comparison.compare tree event next) :
    ∃ shape, WellFormed comparison next shape := by
  obtain ⟨shape, wellFormed⟩ := kept
  cases taken with
  | insert done =>
      obtain ⟨result, nextShape, run, later, -⟩ := rbTreeInsert_spec wellFormed _ _
      obtain ⟨rfl, -⟩ := Prod.mk.inj (Option.some.inj (run.symm.trans done))
      exact ⟨nextShape, later⟩
  | delete inside done =>
      obtain ⟨result, nextShape, run, later, -⟩ :=
        rbDelete_spec wellFormed ((wellFormed.stored.inTree_iff _).mp inside)
      obtain ⟨rfl, -⟩ := Prod.mk.inj (Option.some.inj (run.symm.trans done))
      exact ⟨nextShape, later⟩
  | query => exact ⟨shape, wellFormed⟩

/-- Every run from the created tree keeps it well formed. -/
theorem treeRun_wellFormed
    (run : Run (TreeStep comparison.compare) (rbTreeCreate K V) events tree) :
    ∃ shape, WellFormed comparison tree shape :=
  run.invariant (fun tree => ∃ shape, WellFormed comparison tree shape)
    ⟨.nil, rbTreeCreate_wellFormed comparison⟩ fun _ _ _ kept taken => taken.wellFormed kept

/-- Every run keeps the red-black discipline, and the next operation always returns. -/
theorem treeRun_redBlack
    (run : Run (TreeStep comparison.compare) (rbTreeCreate K V) events tree) :
    (∃ shape, RedBlackInvariant comparison tree shape) ∧
      (∀ key info, ∃ next node, rbTreeInsert comparison.compare tree key info = some (next, node)) ∧
      ∀ z, InTree tree.toLinks z → ∃ next destroyed,
        rbDelete tree (.node z) = some (next, destroyed) := by
  obtain ⟨shape, wellFormed⟩ := treeRun_wellFormed run
  refine ⟨⟨shape, wellFormed.redBlackInvariant⟩, ?_, ?_⟩
  · intro key info
    obtain ⟨next, -, run, -, -⟩ := rbTreeInsert_spec wellFormed key info
    exact ⟨next, _, run⟩
  · intro z inside
    obtain ⟨next, -, run, -, -⟩ :=
      rbDelete_spec wellFormed ((wellFormed.stored.inTree_iff z).mp inside)
    exact ⟨next, _, run⟩

section EqualKeys

def oneKey : RedBlackTreeStruct Int Int :=
  ((rbTreeInsert intComp (rbTreeCreate Int Int) 5 50).get rfl).1

def equalKeys : RedBlackTreeStruct Int Int := ((rbTreeInsert intComp oneKey 5 51).get rfl).1

theorem equalKeys_run : Run (TreeStep intComparison.compare) (rbTreeCreate Int Int)
    [.insert 5 50 (.node 0), .insert 5 51 (.node 1)] equalKeys :=
  .cons (.insert (show rbTreeInsert _ _ 5 50 = some (oneKey, _) from rfl))
    (.cons (.insert (show rbTreeInsert _ _ 5 51 = some (equalKeys, _) from rfl)) .start)

/-- The tree after two insertions of one key and the deletion of the first node. -/
def lastKey : RedBlackTreeStruct Int Int := ((rbDelete equalKeys (.node 0)).get rfl).1

theorem lastKey_run : Run (TreeStep intComparison.compare) (rbTreeCreate Int Int)
    [.insert 5 50 (.node 0), .insert 5 51 (.node 1), .delete 0 [.key (some 5), .info (some 50)]]
    lastKey :=
  .step equalKeys_run (.delete (.top rfl) rfl)

theorem lastKey_redBlack : ∃ shape, RedBlackInvariant intComparison lastKey shape :=
  (treeRun_redBlack lastKey_run).1

end EqualKeys

end BandwidthLimiter
