import BandwidthLimiter.Tree.Delete
import BandwidthLimiter.Tree.Query

namespace BandwidthLimiter
open Foundation

/-- A tree carries the proof that its pointer structure is well formed. -/
structure RbTree {K : Type} (comparison : Comparison K) (V : Type) where
  raw : RedBlackTreeStruct K V
  wellFormed : ∃ shape, WellFormed comparison raw shape

namespace RbTree

variable {K V : Type} {comparison : Comparison K}

/-- A node of the tree is an address that holds a key. -/
abbrev Node (tree : RbTree comparison V) := {a : Nat // (tree.raw.key (.node a)).isSome}

def create (comparison : Comparison K) (V : Type) : RbTree comparison V :=
  ⟨rbTreeCreate K V, .nil, rbTreeCreate_wellFormed comparison⟩

theorem insert_isSome (tree : RbTree comparison V) (key : K) (info : V) :
    (rbTreeInsert comparison.compare tree.raw key info).isSome := by
  obtain ⟨shape, wellFormed⟩ := tree.wellFormed
  obtain ⟨next, -, run, -, -⟩ := rbTreeInsert_spec wellFormed key info
  simp [run]

/-- The insertion as a total function; the source never sees a NULL node. -/
def insert (tree : RbTree comparison V) (key : K) (info : V) : RbTree comparison V where
  raw := ((rbTreeInsert comparison.compare tree.raw key info).get
    (tree.insert_isSome key info)).1
  wellFormed := by
    obtain ⟨shape, wellFormed⟩ := tree.wellFormed
    obtain ⟨next, nextShape, run, kept, -⟩ := rbTreeInsert_spec wellFormed key info
    simp only [run, Option.get_some]
    exact ⟨nextShape, kept⟩

theorem delete_isSome (tree : RbTree comparison V) (node : tree.Node) :
    (rbDelete tree.raw (.node node.1)).isSome := by
  obtain ⟨shape, wellFormed⟩ := tree.wellFormed
  obtain ⟨next, -, run, -, -⟩ := rbDelete_spec wellFormed ((wellFormed.keys _).mp node.2)
  simp [run]

def delete (tree : RbTree comparison V) (node : tree.Node) : RbTree comparison V where
  raw := ((rbDelete tree.raw (.node node.1)).get (tree.delete_isSome node)).1
  wellFormed := by
    obtain ⟨shape, wellFormed⟩ := tree.wellFormed
    obtain ⟨next, nextShape, run, kept, -⟩ :=
      rbDelete_spec wellFormed ((wellFormed.keys _).mp node.2)
    simp only [run, Option.get_some]
    exact ⟨nextShape, kept⟩

def key (tree : RbTree comparison V) (node : tree.Node) : K :=
  (tree.raw.key (.node node.1)).get node.2

theorem info_isSome (tree : RbTree comparison V) (node : tree.Node) :
    (tree.raw.info (.node node.1)).isSome := by
  obtain ⟨shape, wellFormed⟩ := tree.wellFormed
  exact (wellFormed.infos _).mpr ((wellFormed.keys _).mp node.2)

def info (tree : RbTree comparison V) (node : tree.Node) : V :=
  (tree.raw.info (.node node.1)).get (tree.info_isSome node)

theorem key_eq (tree : RbTree comparison V) (node : tree.Node) :
    tree.raw.key (.node node.1) = some (tree.key node) := (Option.some_get _).symm

theorem info_eq (tree : RbTree comparison V) (node : tree.Node) :
    tree.raw.info (.node node.1) = some (tree.info node) := (Option.some_get _).symm

/-- A client writes through the information pointer of a node. -/
def setInfo (tree : RbTree comparison V) (node : tree.Node) (info : V) : RbTree comparison V where
  raw := tree.raw.setInfo (.node node.1) info
  wellFormed := by
    obtain ⟨shape, wellFormed⟩ := tree.wellFormed
    refine ⟨shape, wellFormed.stored, wellFormed.redBlack, wellFormed.bounded, wellFormed.keys, ?_,
      wellFormed.sorted⟩
    intro a
    rw [← wellFormed.infos]
    by_cases same : a = node.1
    · have present := tree.info_isSome node
      simp [RedBlackTreeStruct.setInfo, same, present]
    · simp [RedBlackTreeStruct.setInfo, same]

theorem answer_key {tree : RbTree comparison V} {q : K} {a : Nat}
    (run : rbExactQuery comparison.compare (some tree.raw) q = some (some (.node a))) :
    ∃ k, tree.raw.key (.node a) = some k ∧ comparison.compare k q = 0 := by
  obtain ⟨shape, wellFormed⟩ := tree.wellFormed
  obtain ⟨answer, done, answers⟩ := rbExactQuery_spec wellFormed q
  obtain ⟨-, -, -, found⟩ := answers.found (.node a) (Option.some.inj (done.symm.trans run))
  exact found

/-- The search as a total function; `none` is the NULL result. -/
def exactQuery (tree : RbTree comparison V) (q : K) : Option tree.Node :=
  match run : rbExactQuery comparison.compare (some tree.raw) q with
  | some (some (.node a)) => some ⟨a, by obtain ⟨k, found, -⟩ := answer_key run; simp [found]⟩
  | _ => none

/-- The addresses of the nodes in order. -/
def nodes (tree : RbTree comparison V) : List Nat :=
  (tree.raw.toLinks.readTree tree.raw.loopBound (tree.raw.child .left .root)).inorder

/-- The contents of one address. -/
def content (raw : RedBlackTreeStruct K V) (a : Nat) : Option (K × V) :=
  (raw.key (.node a)).bind fun key => (raw.info (.node a)).map fun info => (key, info)

/-- The pairs of the tree in order. -/
def entries (tree : RbTree comparison V) : List (K × V) := tree.nodes.filterMap (content tree.raw)

section Entries

variable {tree : RbTree comparison V} {shape : ColorTree Nat}

theorem nodes_eq (wellFormed : WellFormed comparison tree.raw shape) :
    tree.nodes = shape.inorder := by
  rw [nodes, wellFormed.top_eq,
    wellFormed.stored.holds.2.readTree (Nat.le_of_lt wellFormed.height_lt)]

theorem mem_nodes (a : Nat) : a ∈ tree.nodes ↔ (tree.raw.key (.node a)).isSome := by
  obtain ⟨shape, wellFormed⟩ := tree.wellFormed
  rw [nodes_eq wellFormed, wellFormed.keys]

theorem content_node (node : tree.Node) :
    content tree.raw node.1 = some (tree.key node, tree.info node) := by
  simp [content, key_eq, info_eq]

theorem node_mem (node : tree.Node) : (tree.key node, tree.info node) ∈ tree.entries :=
  List.mem_filterMap.mpr ⟨node.1, (mem_nodes _).mpr node.2, content_node node⟩

/-- Every entry is the content of a node. -/
theorem exists_node {entry : K × V} (mem : entry ∈ tree.entries) :
    ∃ node : tree.Node, entry = (tree.key node, tree.info node) := by
  obtain ⟨a, inside, held⟩ := List.mem_filterMap.mp mem
  exact ⟨⟨a, (mem_nodes a).mp inside⟩,
    Option.some.inj (held.symm.trans (content_node ⟨a, (mem_nodes a).mp inside⟩))⟩

@[simp] theorem entries_create : (create comparison V).entries = [] := rfl

theorem insert_spec (wellFormed : WellFormed comparison tree.raw shape) (key : K) (info : V) :
    ∃ nextShape, WellFormed comparison (tree.insert key info).raw nextShape ∧
      Inserted tree.raw (tree.insert key info).raw shape nextShape key info := by
  obtain ⟨next, nextShape, run, kept, inserted⟩ := rbTreeInsert_spec wellFormed key info
  simp only [insert, run, Option.get_some]
  exact ⟨nextShape, kept, inserted⟩

/-- An insertion adds one pair. -/
theorem entries_insert (tree : RbTree comparison V) (key : K) (info : V) :
    (tree.insert key info).entries.Perm ((key, info) :: tree.entries) := by
  obtain ⟨shape, wellFormed⟩ := tree.wellFormed
  obtain ⟨nextShape, kept, inserted⟩ := insert_spec wellFormed key info
  obtain ⟨first, second, before, after⟩ := inserted.order
  have new : content (tree.insert key info).raw tree.raw.fresh = some (key, info) := by
    simp [content, inserted.keys, inserted.infos]
  have old (a : Nat) (mem : a ∈ first ++ second) :
      content (tree.insert key info).raw a = content tree.raw a := by
    have different := Nat.ne_of_lt (wellFormed.bounded a (before ▸ mem))
    simp [content, inserted.keys, inserted.infos, different]
  rw [entries, entries, nodes_eq kept, nodes_eq wellFormed, before, after]
  apply (List.perm_middle.filterMap _).trans
  rw [List.filterMap_cons_some new, List.filterMap_congr old]

theorem delete_spec (wellFormed : WellFormed comparison tree.raw shape) (node : tree.Node) :
    ∃ nextShape, WellFormed comparison (tree.delete node).raw nextShape ∧
      Deleted tree.raw (tree.delete node).raw shape nextShape node.1 := by
  obtain ⟨next, nextShape, run, kept, deleted⟩ :=
    rbDelete_spec wellFormed ((wellFormed.keys _).mp node.2)
  simp only [delete, run, Option.get_some]
  exact ⟨nextShape, kept, deleted⟩

/-- A deletion removes the pair of its node. -/
theorem entries_delete (tree : RbTree comparison V) (node : tree.Node) :
    tree.entries.Perm ((tree.key node, tree.info node) :: (tree.delete node).entries) := by
  obtain ⟨shape, wellFormed⟩ := tree.wellFormed
  obtain ⟨nextShape, kept, deleted⟩ := delete_spec wellFormed node
  obtain ⟨first, second, before, after⟩ := deleted.order
  have nodup := wellFormed.nodup
  rw [before] at nodup
  have absent := (List.nodup_cons.mp (List.nodup_middle.mp nodup)).1
  have old (a : Nat) (mem : a ∈ first ++ second) :
      content (tree.delete node).raw a = content tree.raw a := by
    have different : a ≠ node.1 := fun same => absent (same ▸ mem)
    simp [content, deleted.keys, deleted.infos, different]
  rw [entries, entries, nodes_eq kept, nodes_eq wellFormed, before, after,
    List.filterMap_congr old]
  apply (List.perm_middle.filterMap _).trans
  rw [List.filterMap_cons_some (content_node node)]

/-- Writing the information of a node replaces its pair in place. -/
theorem entries_setInfo (tree : RbTree comparison V) (node : tree.Node) (new : V) :
    ∃ first second, tree.entries = first ++ (tree.key node, tree.info node) :: second ∧
      (tree.setInfo node new).entries = first ++ (tree.key node, new) :: second := by
  obtain ⟨shape, wellFormed⟩ := tree.wellFormed
  have same : (tree.setInfo node new).nodes = tree.nodes := rfl
  obtain ⟨first, second, split⟩ := List.append_of_mem ((mem_nodes _).mpr node.2)
  have nodup := wellFormed.nodup
  rw [← nodes_eq wellFormed, split] at nodup
  have absent := (List.nodup_cons.mp (List.nodup_middle.mp nodup)).1
  have old (a : Nat) (mem : a ∈ first ++ second) :
      content (tree.setInfo node new).raw a = content tree.raw a := by
    have different : a ≠ node.1 := fun same => absent (same ▸ mem)
    simp [content, setInfo, RedBlackTreeStruct.setInfo, different]
  have written : content (tree.setInfo node new).raw node.1 = some (tree.key node, new) := by
    simp [content, setInfo, RedBlackTreeStruct.setInfo, key_eq]
  have front := List.filterMap_congr fun a mem => old a (List.mem_append_left _ mem)
  have back := List.filterMap_congr fun a mem => old a (List.mem_append_right _ mem)
  refine ⟨first.filterMap (content tree.raw), second.filterMap (content tree.raw), ?_, ?_⟩
  · rw [entries, split, List.filterMap_append, List.filterMap_cons_some (content_node node)]
  · rw [entries, same, split, List.filterMap_append, List.filterMap_cons_some written, front, back]

end Entries

section Search

variable {tree : RbTree comparison V}

theorem exactQuery_eq (tree : RbTree comparison V) (q : K) :
    rbExactQuery comparison.compare (some tree.raw) q =
      some ((tree.exactQuery q).map fun node => .node node.1) := by
  obtain ⟨shape, wellFormed⟩ := tree.wellFormed
  obtain ⟨answer, run, answers⟩ := rbExactQuery_spec wellFormed q
  rw [run]
  unfold exactQuery
  split
  · rename_i a found
    exact run.symm.trans found
  · rename_i other
    cases answer with
    | none => rfl
    | some p =>
        obtain ⟨a, -, rfl, -⟩ := answers.found p rfl
        exact absurd run (other a)

/-- A found node has an equal key. -/
theorem exactQuery_found {q : K} {node : tree.Node} (found : tree.exactQuery q = some node) :
    comparison.compare (tree.key node) q = 0 := by
  have run := exactQuery_eq tree q
  rw [found] at run
  obtain ⟨k, held, equal⟩ := answer_key run
  rwa [Option.some.inj (held.symm.trans (tree.key_eq node))] at equal

/-- Without a found node no entry has an equal key. -/
theorem exactQuery_missing {q : K} (missing : tree.exactQuery q = none) {entry : K × V}
    (mem : entry ∈ tree.entries) : comparison.compare entry.1 q ≠ 0 := by
  have run := exactQuery_eq tree q
  rw [missing] at run
  obtain ⟨node, rfl⟩ := exists_node mem
  obtain ⟨shape, wellFormed⟩ := tree.wellFormed
  obtain ⟨answer, done, answers⟩ := rbExactQuery_spec wellFormed q
  exact answers.missing (Option.some.inj (done.symm.trans run)) node.1
    ((wellFormed.keys _).mp node.2) _ (tree.key_eq node)

/-- A node is found again after a write to any information. -/
theorem exactQuery_setInfo (tree : RbTree comparison V) (node : tree.Node) (new : V) (q : K) :
    (tree.setInfo node new).exactQuery q = tree.exactQuery q := by
  have run := exactQuery_eq (tree.setInfo node new) q
  have child : (tree.setInfo node new).raw.child = tree.raw.child := rfl
  have key : (tree.setInfo node new).raw.key = tree.raw.key := rfl
  have same : rbExactQuery comparison.compare (some (tree.setInfo node new).raw) q =
      rbExactQuery comparison.compare (some tree.raw) q := queryLoop_congr child key _ _
  rw [same, exactQuery_eq] at run
  have equal := Option.some.inj run
  cases left : (tree.setInfo node new).exactQuery q with
  | none =>
      rw [left] at equal
      exact (Option.map_eq_none_iff.mp equal).symm
  | some found =>
      rw [left] at equal
      obtain ⟨other, present, address⟩ := Option.map_eq_some_iff.mp equal
      rw [present]
      exact congrArg some (Subtype.ext (Pointer.node.inj address).symm)

/-- The information of the found node. -/
def get (tree : RbTree comparison V) (q : K) : Option V := (tree.exactQuery q).map tree.info

/-- No two entries have the same key. -/
def Unique (tree : RbTree comparison V) : Prop := (tree.entries.map Prod.fst).Nodup

theorem info_setInfo (tree : RbTree comparison V) (node other : tree.Node) (new : V) :
    (tree.setInfo node new).info other = if other.1 = node.1 then new else tree.info other := by
  have held := (tree.setInfo node new).info_eq other
  have written : (tree.setInfo node new).raw.info (.node other.1) =
      if other.1 = node.1 then some new else some (tree.info other) := by
    simp [setInfo, RedBlackTreeStruct.setInfo, info_eq]
  rw [written] at held
  split at held
  · rename_i same
    rw [if_pos same]
    exact (Option.some.inj held).symm
  · rename_i different
    rw [if_neg different]
    exact (Option.some.inj held).symm

theorem get_of_found {q : K} {node : tree.Node} (found : tree.exactQuery q = some node) :
    tree.get q = some (tree.info node) := by
  simp [get, found]

theorem get_eq_none {q : K} : tree.get q = none ↔ tree.exactQuery q = none :=
  Option.map_eq_none_iff

/-- A search finds nothing exactly when no entry has an equal key. -/
theorem get_eq_none_iff {q : K} :
    tree.get q = none ↔ ∀ entry ∈ tree.entries, comparison.compare entry.1 q ≠ 0 := by
  rw [get_eq_none]
  constructor
  · exact fun missing entry mem => exactQuery_missing missing mem
  · intro unequal
    cases present : tree.exactQuery q with
    | none => rfl
    | some node => exact absurd (exactQuery_found present) (unequal _ (node_mem node))

theorem unique_create : (create comparison V).Unique := List.nodup_nil

@[simp] theorem get_create (q : K) : (create comparison V).get q = none := rfl

theorem Unique.delete (unique : tree.Unique) (node : tree.Node) : (tree.delete node).Unique := by
  have whole := ((tree.entries_delete node).map Prod.fst).nodup_iff.mp unique
  exact (List.nodup_cons.mp whole).2

theorem Unique.setInfo (unique : tree.Unique) (node : tree.Node) (new : V) :
    (tree.setInfo node new).Unique := by
  obtain ⟨first, second, before, after⟩ := tree.entries_setInfo node new
  rw [Unique, after]
  rw [Unique, before] at unique
  simpa using unique

end Search

section Map

variable [comparison.Exact] {tree : RbTree comparison V} {q k : K} {v : V}

/-- Each found pair is an entry. -/
theorem mem_of_get (found : tree.get q = some v) : (q, v) ∈ tree.entries := by
  obtain ⟨node, present, rfl⟩ := Option.map_eq_some_iff.mp found
  obtain rfl := Comparison.eq_of_zero (exactQuery_found present)
  exact node_mem node

/-- A found pair belongs to a found node with this key. -/
theorem exists_of_get (found : tree.get q = some v) :
    ∃ node, tree.exactQuery q = some node ∧ tree.key node = q ∧ tree.info node = v := by
  obtain ⟨node, present, held⟩ := Option.map_eq_some_iff.mp found
  exact ⟨node, present, Comparison.eq_of_zero (exactQuery_found present), held⟩

theorem get_eq_none_iff_absent : tree.get q = none ↔ q ∉ tree.entries.map Prod.fst := by
  rw [get_eq_none_iff]
  constructor
  · intro unequal mem
    obtain ⟨entry, inside, rfl⟩ := List.mem_map.mp mem
    exact unequal entry inside (comparison.self _)
  · intro absent entry mem equal
    obtain rfl := Comparison.eq_of_zero equal
    exact absent (List.mem_map_of_mem mem)

theorem Unique.value_eq {entries : List (K × V)} (unique : (entries.map Prod.fst).Nodup)
    {first second : V} (left : (q, first) ∈ entries) (right : (q, second) ∈ entries) :
    first = second :=
  congrArg Prod.snd (List.inj_on_of_nodup_map unique left right rfl)

/-- With unique keys the entries are the graph of the search. -/
theorem Unique.get_eq_some (unique : tree.Unique) : tree.get q = some v ↔ (q, v) ∈ tree.entries := by
  constructor
  · exact mem_of_get
  · intro mem
    cases found : tree.get q with
    | none => exact absurd (List.mem_map_of_mem mem) (get_eq_none_iff_absent.mp found)
    | some other => rw [Unique.value_eq unique (mem_of_get found) mem]

/-- A fresh key keeps the keys unique. -/
theorem Unique.insert (unique : tree.Unique) (fresh : tree.get k = none) :
    (tree.insert k v).Unique := by
  apply ((tree.entries_insert k v).map Prod.fst).nodup_iff.mpr
  exact List.nodup_cons.mpr ⟨get_eq_none_iff_absent.mp fresh, unique⟩

end Map

section Update

variable [DecidableEq K] [comparison.Exact] {tree : RbTree comparison V} {q k : K} {v : V}

theorem Unique.get_insert (unique : tree.Unique) (fresh : tree.get k = none) (q : K) :
    (tree.insert k v).get q = if q = k then some v else tree.get q := by
  ext u
  rw [(unique.insert fresh).get_eq_some, (tree.entries_insert k v).mem_iff, List.mem_cons]
  split
  · rename_i same
    subst same
    have absent : (q, u) ∉ tree.entries := fun mem =>
      get_eq_none_iff_absent.mp fresh (List.mem_map_of_mem mem)
    simp [absent, eq_comm]
  · rename_i different
    simp [different, unique.get_eq_some]

theorem Unique.get_delete (unique : tree.Unique) (node : tree.Node) (q : K) :
    (tree.delete node).get q = if q = tree.key node then none else tree.get q := by
  have perm := tree.entries_delete node
  have whole := List.nodup_cons.mp ((perm.map Prod.fst).nodup_iff.mp unique)
  split
  · rename_i same
    rw [get_eq_none_iff_absent, same]
    exact whole.1
  · rename_i different
    ext u
    rw [(unique.delete node).get_eq_some, unique.get_eq_some, perm.mem_iff, List.mem_cons]
    simp [different]

/-- A write to a found node changes the search at its key alone. -/
theorem get_setInfo {node : tree.Node} (found : tree.exactQuery k = some node) (new : V) (q : K) :
    (tree.setInfo node new).get q = if q = k then some new else tree.get q := by
  have same := exactQuery_setInfo tree node new q
  split
  · rename_i equal
    rw [equal, found] at same
    rw [equal, get_of_found same, info_setInfo]
    simp
  · rename_i different
    cases present : tree.exactQuery q with
    | none => rw [get_eq_none.mpr (same.trans present), get_eq_none.mpr present]
    | some other =>
        have apart : other.1 ≠ node.1 := by
          intro address
          have keys : tree.key other = tree.key node := congrArg tree.key (Subtype.ext address)
          rw [Comparison.eq_of_zero (exactQuery_found present),
            Comparison.eq_of_zero (exactQuery_found found)] at keys
          exact different keys
        rw [get_of_found (same.trans present), get_of_found present, info_setInfo]
        simp [apart]

end Update

end RbTree

end BandwidthLimiter
