import BandwidthLimiter.Tree.RbTree

namespace BandwidthLimiter
open Foundation

/-- The same nodes with the images of their keys and information. -/
def RedBlackTreeStruct.relabel {K V K' V' : Type} (f : K → K') (g : V → V')
    (tree : RedBlackTreeStruct K V) : RedBlackTreeStruct K' V' where
  toLinks := tree.toLinks
  key p := (tree.key p).map f
  info p := (tree.info p).map g
  visited := tree.visited
  currentTraversePoint := tree.currentTraversePoint
  fresh := tree.fresh

/-- The image of a destroyed key or information. -/
def Destroy.relabel {K V K' V' : Type} (f : K → K') (g : V → V') : Destroy K V → Destroy K' V'
  | .key held => .key (held.map f)
  | .info held => .info (held.map g)

section Raw

variable {K V K' V' : Type} {f : K → K'} {g : V → V'} {compare : K → K → Int}
  {compare' : K' → K' → Int} (same : ∀ a b, compare' (f a) (f b) = compare a b)

@[simp] theorem relabel_key (tree : RedBlackTreeStruct K V) (p : Pointer Nat) :
    (tree.relabel f g).key p = (tree.key p).map f := rfl

@[simp] theorem relabel_info (tree : RedBlackTreeStruct K V) (p : Pointer Nat) :
    (tree.relabel f g).info p = (tree.info p).map g := rfl

@[simp] theorem relabel_loopBound (tree : RedBlackTreeStruct K V) :
    (tree.relabel f g).loopBound = tree.loopBound := rfl

theorem allocate_relabel (tree : RedBlackTreeStruct K V) (key : K) (info : V) :
    (tree.relabel f g).allocate (f key) (g info) = (tree.allocate key info).relabel f g := by
  simp only [RedBlackTreeStruct.relabel, RedBlackTreeStruct.allocate, RedBlackTreeStruct.mk.injEq,
    true_and, and_true]
  refine ⟨?_, ?_, ?_⟩ <;> funext p <;> by_cases new : p = .node tree.fresh <;> simp [new]

theorem free_relabel (tree : RedBlackTreeStruct K V) (node : Pointer Nat) :
    (tree.relabel f g).free node = (tree.free node).relabel f g := by
  simp only [RedBlackTreeStruct.relabel, RedBlackTreeStruct.free, RedBlackTreeStruct.mk.injEq,
    true_and, and_true]
  constructor <;> funext p <;> by_cases freed : p = node <;> simp [freed]

theorem setInfo_relabel (tree : RedBlackTreeStruct K V) (node : Pointer Nat) (info : V) :
    (tree.relabel f g).setInfo node (g info) = (tree.setInfo node info).relabel f g := by
  simp only [RedBlackTreeStruct.relabel, RedBlackTreeStruct.setInfo, RedBlackTreeStruct.mk.injEq,
    true_and, and_true]
  funext p
  by_cases written : p = node <;> simp [written]

/-- A deletion does not look at the keys. -/
theorem rbDelete_relabel (tree : RedBlackTreeStruct K V) (z : Pointer Nat) :
    rbDelete (tree.relabel f g) z =
      (rbDelete tree z).map fun result => (result.1.relabel f g, result.2.map (.relabel f g)) := by
  have links : (tree.relabel f g).toLinks = tree.toLinks := rfl
  have freed (repaired : Links Nat) (node : Pointer Nat) :
      RedBlackTreeStruct.free { tree.relabel f g with toLinks := repaired } node =
        (RedBlackTreeStruct.free { tree with toLinks := repaired } node).relabel f g :=
    free_relabel { tree with toLinks := repaired } node
  simp only [rbDelete, rbDeleteWithin, links, relabel_loopBound, Option.bind_eq_bind]
  split
  · simp only [Option.bind_some, ne_eq, not_true_eq_false, if_false, freed, Option.map_bind]
    rfl
  · cases treeSuccessor _ _ _ with
    | none => rfl
    | some y =>
        simp only [Option.bind_some]
        split
        · simp only [freed, Option.map_bind]
          rfl
        · simp only [freed, Option.map_bind]
          rfl

include same

/-- A search compares the images as it compares the keys. -/
theorem queryLoop_relabel (tree : RedBlackTreeStruct K V) (q : K) (fuel : Nat) (x : Pointer Nat) :
    queryLoop compare' (tree.relabel f g) (f q) fuel x = queryLoop compare tree q fuel x := by
  induction fuel generalizing x with
  | zero => rfl
  | succ fuel ih =>
      simp only [queryLoop]
      cases held : tree.key x with
      | none => simp [held]
      | some key =>
          simp only [relabel_key, held, Option.map_some, Option.bind_eq_bind, Option.bind_some, same, ih]
          rfl

theorem insertDescent_relabel (tree : RedBlackTreeStruct K V) (zKey : K) (fuel : Nat)
    (y x : Pointer Nat) : insertDescent compare' (tree.relabel f g) (f zKey) fuel y x =
      insertDescent compare tree zKey fuel y x := by
  induction fuel generalizing y x with
  | zero => rfl
  | succ fuel ih =>
      simp only [insertDescent]
      cases held : tree.key x with
      | none => simp [held]
      | some key =>
          simp only [relabel_key, held, Option.map_some, Option.bind_eq_bind, Option.bind_some, same, ih]
          rfl

theorem treeInsertHelpWithin_relabel (bound : Nat) (tree : RedBlackTreeStruct K V) (z : Pointer Nat) :
    treeInsertHelpWithin compare' bound (tree.relabel f g) z =
      (treeInsertHelpWithin compare bound tree z).map (.relabel f g) := by
  have descent (links : Links Nat) (zKey : K) (fuel : Nat) (y x : Pointer Nat) :
      insertDescent compare' { tree.relabel f g with toLinks := links } (f zKey) fuel y x =
        insertDescent compare { tree with toLinks := links } zKey fuel y x :=
    insertDescent_relabel same { tree with toLinks := links } zKey fuel y x
  have links : (tree.relabel f g).toLinks = tree.toLinks := rfl
  simp only [treeInsertHelpWithin, relabel_key, links]
  cases tree.key z with
  | none => rfl
  | some zKey =>
      simp only [Option.map_some, Option.bind_eq_bind, Option.bind_some, descent]
      cases insertDescent compare _ zKey _ _ _ with
      | none => rfl
      | some y =>
          simp only [Option.bind_some]
          split
          · rfl
          · cases tree.key y with
            | none => rfl
            | some yKey =>
                simp only [Option.map_some, Option.bind_some, same]
                split <;> rfl

theorem rbTreeInsert_relabel (tree : RedBlackTreeStruct K V) (key : K) (info : V) :
    rbTreeInsert compare' (tree.relabel f g) (f key) (g info) =
      (rbTreeInsert compare tree key info).map fun result => (result.1.relabel f g, result.2) := by
  have fresh : (tree.relabel f g).fresh = tree.fresh := rfl
  simp only [rbTreeInsert, rbTreeInsertWithin, allocate_relabel, relabel_loopBound,
    treeInsertHelpWithin_relabel same, fresh, Option.bind_eq_bind]
  cases treeInsertHelpWithin compare _ (tree.allocate key info) (.node tree.fresh) with
  | none => rfl
  | some placed =>
      have links : (placed.relabel f g).toLinks = placed.toLinks := rfl
      simp only [Option.map_some, Option.bind_some, links]
      cases insertFixUp _ _ _ <;> rfl

end Raw

namespace RbTree

variable {K V K' V' : Type} {comparison : Comparison K'} {f : K → K'}

/-- The tree of the images; the keys are compared by their images. -/
def relabel (tree : RbTree (comparison.comap f) V) (g : V → V') : RbTree comparison V' where
  raw := tree.raw.relabel f g
  wellFormed := by
    obtain ⟨shape, wellFormed⟩ := tree.wellFormed
    refine ⟨shape, wellFormed.stored, wellFormed.redBlack, wellFormed.bounded, fun a => ?_,
      fun a => ?_, ?_⟩
    · simpa using wellFormed.keys a
    · simpa using wellFormed.infos a
    · apply List.Pairwise.imp _ wellFormed.sorted
      intro a b ordered ka heldA kb heldB
      simp only [relabel_key, Option.mem_def, Option.map_eq_some_iff] at heldA heldB
      obtain ⟨k, heldA, rfl⟩ := heldA
      obtain ⟨l, heldB, rfl⟩ := heldB
      exact ordered k heldA l heldB

variable (tree : RbTree (comparison.comap f) V) (g : V → V')

/-- The node of the tree of images at the same address. -/
def relabelNode (node : tree.Node) : (tree.relabel g).Node := ⟨node.1, by simpa [relabel] using node.2⟩

theorem relabel_insert (key : K) (info : V) :
    (tree.insert key info).relabel g = (tree.relabel g).insert (f key) (g info) := by
  obtain ⟨shape, wellFormed⟩ := tree.wellFormed
  obtain ⟨next, -, run, -, -⟩ := rbTreeInsert_spec wellFormed key info
  have image : rbTreeInsert comparison.compare (tree.raw.relabel f g) (f key) (g info) = _ :=
    rbTreeInsert_relabel (fun _ _ => rfl) tree.raw key info
  rw [show rbTreeInsert (fun a b => comparison.compare (f a) (f b)) tree.raw key info = _ from run]
    at image
  simp only [insert, relabel, image, run, Option.map_some, Option.get_some]

theorem relabel_delete (node : tree.Node) :
    (tree.delete node).relabel g = (tree.relabel g).delete (tree.relabelNode g node) := by
  obtain ⟨shape, wellFormed⟩ := tree.wellFormed
  obtain ⟨next, -, run, -, -⟩ := rbDelete_spec wellFormed ((wellFormed.keys _).mp node.2)
  have image : rbDelete (tree.raw.relabel f g) (.node node.1) = _ := rbDelete_relabel tree.raw _
  rw [run] at image
  simp only [delete, relabel, relabelNode, image, run, Option.map_some, Option.get_some]

theorem relabel_setInfo (node : tree.Node) (info : V) :
    (tree.setInfo node info).relabel g =
      (tree.relabel g).setInfo (tree.relabelNode g node) (g info) := by
  simp only [setInfo, relabel, relabelNode, setInfo_relabel]

/-- A write to a node before its deletion. -/
theorem relabel_delete_setInfo (node : tree.Node) (info : V) :
    ((tree.setInfo node info).delete node).relabel g =
      ((tree.relabel g).setInfo (tree.relabelNode g node) (g info)).delete
        (tree.relabelNode g node) := by
  have delete_congr {first second : RbTree comparison V'} (same : first = second)
      (node : first.Node) (other : second.Node) (address : node.1 = other.1) :
      first.delete node = second.delete other := by
    subst same
    rw [Subtype.ext address]
  rw [relabel_delete (tree.setInfo node info) g node]
  exact delete_congr (relabel_setInfo tree g node info) _ _ rfl

theorem relabel_info (node : tree.Node) :
    (tree.relabel g).info (tree.relabelNode g node) = g (tree.info node) := by
  have held := (tree.relabel g).info_eq (tree.relabelNode g node)
  have image : (tree.relabel g).raw.info (.node node.1) = some (g (tree.info node)) := by
    simp [relabel, tree.info_eq node]
  exact (Option.some.inj (image.symm.trans held)).symm

theorem relabel_exactQuery (q : K) :
    (tree.relabel g).exactQuery (f q) = (tree.exactQuery q).map (tree.relabelNode g) := by
  have image := (tree.relabel g).exactQuery_eq (f q)
  have original := tree.exactQuery_eq q
  have same : rbExactQuery comparison.compare (some (tree.relabel g).raw) (f q) =
      rbExactQuery (comparison.comap f).compare (some tree.raw) q :=
    queryLoop_relabel (fun _ _ => rfl) tree.raw q _ _
  rw [same, original] at image
  have equal := Option.some.inj image
  cases found : tree.exactQuery q with
  | none =>
      rw [found] at equal
      exact Option.map_eq_none_iff.mp equal.symm
  | some node =>
      rw [found] at equal
      obtain ⟨other, present, address⟩ := Option.map_eq_some_iff.mp equal.symm
      rw [present]
      exact congrArg some (Subtype.ext (Pointer.node.inj address))

/-- A write of the information that a node has already. -/
theorem setInfo_self {K V : Type} {comparison : Comparison K} (tree : RbTree comparison V)
    (node : tree.Node) : tree.setInfo node (tree.info node) = tree := by
  have same : tree.raw.setInfo (.node node.1) (tree.info node) = tree.raw := by
    have held := tree.info_eq node
    simp only [RedBlackTreeStruct.setInfo]
    congr 1
    funext p
    by_cases written : p = .node node.1 <;> simp [written, held]
  cases tree
  simp only [setInfo] at same ⊢
  congr 1

/-- A write whose image is the image of the old information leaves the tree of images. -/
theorem relabel_setInfo_same (node : tree.Node) {info : V} (same : g info = g (tree.info node)) :
    (tree.setInfo node info).relabel g = tree.relabel g := by
  rw [relabel_setInfo, same, ← relabel_info tree g node, setInfo_self]

section MapInfo

variable {K V V' : Type} {comparison : Comparison K} (tree : RbTree comparison V) (g : V → V')

/-- The tree with the images of its information. -/
def mapInfo : RbTree comparison V' := (show RbTree (comparison.comap id) V from tree).relabel g

def mapNode (node : tree.Node) : (tree.mapInfo g).Node :=
  (show RbTree (comparison.comap id) V from tree).relabelNode g node

theorem mapInfo_exactQuery (q : K) :
    (tree.mapInfo g).exactQuery q = (tree.exactQuery q).map (tree.mapNode g) :=
  relabel_exactQuery (show RbTree (comparison.comap id) V from tree) g q

theorem mapInfo_info (node : tree.Node) :
    (tree.mapInfo g).info (tree.mapNode g node) = g (tree.info node) :=
  relabel_info (show RbTree (comparison.comap id) V from tree) g node

theorem mapInfo_insert (key : K) (info : V) :
    (tree.insert key info).mapInfo g = (tree.mapInfo g).insert key (g info) :=
  relabel_insert (show RbTree (comparison.comap id) V from tree) g key info

theorem mapInfo_delete (node : tree.Node) :
    (tree.delete node).mapInfo g = (tree.mapInfo g).delete (tree.mapNode g node) :=
  relabel_delete (show RbTree (comparison.comap id) V from tree) g node

theorem mapInfo_setInfo_same (node : tree.Node) {info : V} (same : g info = g (tree.info node)) :
    (tree.setInfo node info).mapInfo g = tree.mapInfo g :=
  relabel_setInfo_same (show RbTree (comparison.comap id) V from tree) g node same

end MapInfo

end RbTree

end BandwidthLimiter
