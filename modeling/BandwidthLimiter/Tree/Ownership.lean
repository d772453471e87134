import BandwidthLimiter.Foundation.Blocks
import BandwidthLimiter.Tree.Relabel

namespace BandwidthLimiter
open Foundation

/-- A value in a block of `safe_malloc`. -/
structure Block (A : Type) where
  address : Nat
  value : A

/-- A value for a search lies on the stack. -/
def Block.onStack {A : Type} (value : A) : Block A := ⟨0, value⟩

/-- The information of a node, with the block of the node itself. -/
structure Cell (V : Type) extends Block V where
  node : Nat

/-- The ways in which an operation on the heap ends the process. -/
inductive Fault where
  | nullDereference
  | invalidFree
  deriving DecidableEq, Repr

/-- The address of a new block, and the blocks in use with it. -/
def safeMalloc (malloc : List Nat → Nat) (live : List Nat) : Nat × List Nat :=
  (malloc live, malloc live :: live)

/-- A new block is distinct from the blocks in use. -/
theorem safeMalloc_nodup {malloc : List Nat → Nat} {live : List Nat}
    (fresh : ∀ live, malloc live ∉ live) (distinct : live.Nodup) :
    (safeMalloc malloc live).2.Nodup :=
  List.nodup_cons.mpr ⟨fresh live, distinct⟩

/-- Calls of `free` one after the other. -/
def freeBlocks (live blocks : List Nat) : Except Fault (List Nat) :=
  match releaseAll live blocks with
  | none => .error .invalidFree
  | some live => .ok live

/-- The owner of some blocks can free them. -/
theorem freeBlocks_spec {live blocks rest : List Nat} (owned : live.Perm (blocks ++ rest)) :
    ∃ after, freeBlocks live blocks = .ok after ∧ after.Perm rest ∧ (live.Nodup → after.Nodup) := by
  obtain ⟨after, done, kept⟩ := releaseAll_perm owned
  exact ⟨after, by rw [freeBlocks, done], kept, fun distinct => releaseAll_nodup distinct done⟩

/-- The callbacks of a tree: the blocks that they free. -/
structure Destructor (K V : Type) where
  destFunc : Block K → List Nat
  infoDestFunc : Block V → List Nat

/-- `int_dest` and `info_dest` free the blocks of their arguments. -/
def intDestructor (V : Type) : Destructor Int V :=
  ⟨fun key => [key.address], fun info => [info.address]⟩

/-- `uint32_dest` is empty, because a key lies inside the block of its entry. -/
def uint32Destructor (V : Type) : Destructor UInt32 V :=
  ⟨fun _ => [], fun info => [info.address]⟩

namespace Destructor

variable {K V : Type}

/-- The blocks that go back with one callback; the node goes back behind its two callbacks. -/
def frees (destructor : Destructor K V) : Destroy (Block K) (Cell V) → List Nat
  | .key key => (key.map destructor.destFunc).getD []
  | .info info => (info.map fun cell => destructor.infoDestFunc cell.toBlock ++ [cell.node]).getD []

/-- The blocks of a node with its key and its information. -/
def node (destructor : Destructor K V) (entry : Block K × Cell V) : List Nat :=
  destructor.destFunc entry.1 ++ (destructor.infoDestFunc entry.2.toBlock ++ [entry.2.node])

/-- The blocks of the nodes of a tree. -/
def blocks (destructor : Destructor K V) (entries : List (Block K × Cell V)) : List Nat :=
  entries.flatMap destructor.node

/-- The information goes back with its block. -/
def OfAddress (destructor : Destructor K V) : Prop :=
  ∀ info other : Block V, info.address = other.address →
    destructor.infoDestFunc info = destructor.infoDestFunc other

theorem intDestructor_ofAddress : (intDestructor V).OfAddress :=
  fun _ _ same => congrArg (fun address => [address]) same

theorem uint32Destructor_ofAddress : (uint32Destructor V).OfAddress :=
  fun _ _ same => congrArg (fun address => [address]) same

end Destructor

namespace RbTree

variable {K V : Type} {comparison : Comparison K}

/-- The callbacks that `rb_delete` reaches. -/
def deleteLog (tree : RbTree comparison V) (node : tree.Node) : List (Destroy K V) :=
  ((rbDelete tree.raw (.node node.1)).get (tree.delete_isSome node)).2

theorem destroy_isSome (tree : RbTree comparison V) : (rbTreeDestroy tree.raw).isSome := by
  obtain ⟨shape, wellFormed⟩ := tree.wellFormed
  simp [rbTreeDestroy_spec wellFormed]

/-- The callbacks that `rb_tree_destroy` reaches. -/
def destroyLog (tree : RbTree comparison V) : List (Destroy K V) :=
  (rbTreeDestroy tree.raw).get tree.destroy_isSome

end RbTree

/-- A tree with the blocks of its structure, of its sentinels and of its nodes. -/
structure TreeHeap {K : Type} (comparison : Comparison K) (V : Type) where
  newTree : Nat
  nil : Nat
  root : Nat
  tree : RbTree (comparison.comap Block.value) (Cell V)

namespace TreeHeap

variable {K V : Type} {comparison : Comparison K}

/-- The function `rb_tree_create` with its blocks. -/
def create (comparison : Comparison K) (V : Type) (malloc : List Nat → Nat) (live : List Nat) :
    TreeHeap comparison V × List Nat :=
  let (newTree, live) := safeMalloc malloc live
  let (nil, live) := safeMalloc malloc live
  let (root, live) := safeMalloc malloc live
  ({ newTree, nil, root, tree := .create _ _ }, live)

/-- The function `rb_tree_insert` with the block of its node. -/
def insert (malloc : List Nat → Nat) (live : List Nat) (heap : TreeHeap comparison V) (key : Block K)
    (info : Block V) : TreeHeap comparison V × List Nat :=
  let (x, live) := safeMalloc malloc live
  ({ heap with tree := heap.tree.insert key { info with node := x } }, live)

/-- A write through the information pointer of a node. -/
def setValue (heap : TreeHeap comparison V) (node : heap.tree.Node) (value : V) :
    TreeHeap comparison V :=
  { heap with tree := heap.tree.setInfo node { heap.tree.info node with value } }

/-- The function `rb_delete` with its calls of `free`. -/
def delete (destructor : Destructor K V) (live : List Nat) (heap : TreeHeap comparison V)
    (node : heap.tree.Node) : Except Fault (TreeHeap comparison V × List Nat) := do
  let live ← freeBlocks live ((heap.tree.deleteLog node).flatMap destructor.frees)
  return ({ heap with tree := heap.tree.delete node }, live)

/-- The function `rb_tree_destroy` with its calls of `free`. -/
def destroy (destructor : Destructor K V) (live : List Nat) (heap : TreeHeap comparison V) :
    Except Fault (List Nat) :=
  freeBlocks live
    (heap.tree.destroyLog.flatMap destructor.frees ++ [heap.root, heap.nil, heap.newTree])

/-- The tree without the addresses. -/
def forget (heap : TreeHeap comparison V) : RbTree comparison V :=
  heap.tree.relabel fun cell => cell.value

/-- The node of the tree without the addresses. -/
def forgetNode (heap : TreeHeap comparison V) (node : heap.tree.Node) : heap.forget.Node :=
  heap.tree.relabelNode (fun cell => cell.value) node

/-- The blocks of the tree. -/
def owned (destructor : Destructor K V) (heap : TreeHeap comparison V) : List Nat :=
  destructor.blocks heap.tree.entries ++ [heap.root, heap.nil, heap.newTree]

section Values

variable {malloc : List Nat → Nat} {live : List Nat} (heap : TreeHeap comparison V)

@[simp] theorem forget_create : (create comparison V malloc live).1.forget = .create comparison V := rfl

@[simp] theorem forget_insert (key : Block K) (info : Block V) :
    (heap.insert malloc live key info).1.forget = heap.forget.insert key.value info.value :=
  RbTree.relabel_insert ..

theorem forget_exactQuery (q : K) :
    heap.forget.exactQuery q = (heap.tree.exactQuery (.onStack q)).map heap.forgetNode :=
  heap.tree.relabel_exactQuery (fun cell => cell.value) (.onStack q)

@[simp] theorem forget_info (node : heap.tree.Node) :
    heap.forget.info (heap.forgetNode node) = (heap.tree.info node).value :=
  RbTree.relabel_info ..

@[simp] theorem forget_setValue (node : heap.tree.Node) (value : V) :
    (heap.setValue node value).forget = heap.forget.setInfo (heap.forgetNode node) value :=
  RbTree.relabel_setInfo ..

theorem forget_delete (node : heap.tree.Node) :
    forget { heap with tree := heap.tree.delete node } = heap.forget.delete (heap.forgetNode node) :=
  RbTree.relabel_delete ..

/-- A write to a node before its deletion. -/
theorem forget_delete_setValue (node : heap.tree.Node) (value : V) :
    forget { heap.setValue node value with tree := (heap.setValue node value).tree.delete node } =
      (heap.forget.setInfo (heap.forgetNode node) value).delete (heap.forgetNode node) :=
  RbTree.relabel_delete_setInfo ..

end Values

section Blocks

variable {malloc : List Nat → Nat} {live rest : List Nat} {heap : TreeHeap comparison V}
  {destructor : Destructor K V}

theorem deleteLog_frees (destructor : Destructor K V) (node : heap.tree.Node) :
    (heap.tree.deleteLog node).flatMap destructor.frees =
      destructor.node (heap.tree.key node, heap.tree.info node) := by
  obtain ⟨shape, wellFormed⟩ := heap.tree.wellFormed
  obtain ⟨next, -, run, -, -⟩ := rbDelete_spec wellFormed ((wellFormed.keys _).mp node.2)
  simp [RbTree.deleteLog, run, Destructor.frees, Destructor.node, heap.tree.key_eq node,
    heap.tree.info_eq node]

/-- The destruction hands over the nodes of the tree. -/
theorem destroyLog_frees (destructor : Destructor K V) :
    (heap.tree.destroyLog.flatMap destructor.frees).Perm (destructor.blocks heap.tree.entries) := by
  obtain ⟨shape, wellFormed⟩ := heap.tree.wellFormed
  have order : shape.postorder.Perm heap.tree.nodes := by
    rw [RbTree.nodes_eq wellFormed]
    exact shape.postorder_perm
  have held (a : Nat) (mem : a ∈ heap.tree.nodes) :
      destructor.frees (.key (heap.tree.raw.key (.node a))) ++
          destructor.frees (.info (heap.tree.raw.info (.node a))) =
        (RbTree.content heap.tree.raw a).toList.flatMap destructor.node := by
    have node : ∃ node : heap.tree.Node, node.1 = a := ⟨⟨a, (RbTree.mem_nodes a).mp mem⟩, rfl⟩
    obtain ⟨node, rfl⟩ := node
    simp [RbTree.content_node, Destructor.frees, Destructor.node, heap.tree.key_eq node,
      heap.tree.info_eq node]
  calc (heap.tree.destroyLog.flatMap destructor.frees)
      = shape.postorder.flatMap fun a => destructor.frees (.key (heap.tree.raw.key (.node a))) ++
          destructor.frees (.info (heap.tree.raw.info (.node a))) := by
        simp [RbTree.destroyLog, rbTreeDestroy_spec wellFormed, destroyed, List.flatMap_assoc]
    List.Perm _ (heap.tree.nodes.flatMap fun a => destructor.frees (.key (heap.tree.raw.key (.node a))) ++
          destructor.frees (.info (heap.tree.raw.info (.node a)))) := order.flatMap_right _
    _ = destructor.blocks heap.tree.entries := by
        rw [List.flatMap_congr held, ← List.flatMap_assoc]
        simp [Destructor.blocks, RbTree.entries, List.filterMap_eq_flatMap_toList]

/-- A new tree takes three blocks. -/
theorem create_owned (destructor : Destructor K V) : (create comparison V malloc live).2 =
    (create comparison V malloc live).1.owned destructor ++ live := rfl

theorem create_nodup (fresh : ∀ live, malloc live ∉ live) (distinct : live.Nodup) :
    (create comparison V malloc live).2.Nodup :=
  safeMalloc_nodup fresh (safeMalloc_nodup fresh (safeMalloc_nodup fresh distinct))

/-- A new node owns its block and those of its key and its information. -/
theorem insert_owned (destructor : Destructor K V) (key : Block K) (info : Block V) :
    ((heap.insert malloc live key info).1.owned destructor).Perm
      (destructor.node (key, { info with node := malloc live }) ++ heap.owned destructor) := by
  have added := (heap.tree.entries_insert key { info with node := malloc live }).flatMap_right
    destructor.node
  rw [owned, owned, ← List.append_assoc]
  exact added.append_right _

/-- A write to the information of a node keeps the blocks of the tree. -/
theorem setValue_owned (ofAddress : destructor.OfAddress) (node : heap.tree.Node) (value : V) :
    (heap.setValue node value).owned destructor = heap.owned destructor := by
  let cell := heap.tree.info node
  obtain ⟨first, second, before, after⟩ := heap.tree.entries_setInfo node { cell with value }
  have same := ofAddress { cell.toBlock with value } cell.toBlock rfl
  simp [owned, setValue, Destructor.blocks, Destructor.node, before, after, cell, same]

/-- A deletion frees the blocks of its node. -/
theorem delete_spec (node : heap.tree.Node) (held : live.Perm (heap.owned destructor ++ rest)) :
    ∃ after, heap.delete destructor live node =
        .ok ({ heap with tree := heap.tree.delete node }, after) ∧
      after.Perm (owned destructor { heap with tree := heap.tree.delete node } ++ rest) ∧
      (live.Nodup → after.Nodup) := by
  have split := (heap.tree.entries_delete node).flatMap_right destructor.node
  have parts : live.Perm (destructor.node (heap.tree.key node, heap.tree.info node) ++
      (owned destructor { heap with tree := heap.tree.delete node } ++ rest)) := by
    apply held.trans
    rw [← List.append_assoc, owned, owned, ← List.append_assoc]
    exact (split.append_right _).append_right _
  obtain ⟨after, done, kept, distinct⟩ := freeBlocks_spec parts
  refine ⟨after, ?_, kept, distinct⟩
  rw [delete, deleteLog_frees, done]
  rfl

/-- The destruction frees all blocks of the tree. -/
theorem destroy_spec (held : live.Perm (heap.owned destructor ++ rest)) :
    ∃ after, heap.destroy destructor live = .ok after ∧ after.Perm rest ∧
      (live.Nodup → after.Nodup) := by
  have frees : (heap.tree.destroyLog.flatMap destructor.frees).Perm
      (destructor.blocks heap.tree.entries) := destroyLog_frees destructor
  have split := (frees.symm.append_right [heap.root, heap.nil, heap.newTree]).append_right rest
  exact freeBlocks_spec (held.trans split)

end Blocks

end TreeHeap

end BandwidthLimiter
