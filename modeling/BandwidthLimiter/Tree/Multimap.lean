import Mathlib.Algebra.Order.Group.Multiset
import BandwidthLimiter.Tree.History

namespace BandwidthLimiter
open Foundation

variable {K V : Type}

/-- A multimap entry keeps the node that holds its pair. -/
structure Entry (K V : Type) where
  node : Nat
  key : K
  info : V

/-- The abstract multimap adds one entry, removes one entry, or answers a search. -/
inductive MultimapStep (comparison : Comparison K) :
    List (Entry K V) → TreeEvent K V → List (Entry K V) → Prop where
  | insert {map : List (Entry K V)} {key : K} {info : V} {a : Nat}
      (unused : ∀ entry ∈ map, entry.node ≠ a) :
      MultimapStep comparison map (.insert key info (.node a)) (⟨a, key, info⟩ :: map)
  | delete {first second : List (Entry K V)} {entry : Entry K V} :
      MultimapStep comparison (first ++ entry :: second)
        (.delete entry.node [.key (some entry.key), .info (some entry.info)]) (first ++ second)
  | found {map : List (Entry K V)} {q : K} {entry : Entry K V} (mem : entry ∈ map)
      (equal : comparison.compare entry.key q = 0) :
      MultimapStep comparison map (.query q (some (.node entry.node))) map
  | missing {map : List (Entry K V)} {q : K}
      (unequal : ∀ entry ∈ map, comparison.compare entry.key q ≠ 0) :
      MultimapStep comparison map (.query q none) map

/-- The tree holds exactly the entries of the map. -/
structure Represents (tree : RedBlackTreeStruct K V) (map : List (Entry K V)) : Prop where
  reached : ∀ a, InTree tree.toLinks a ↔ a ∈ map.map Entry.node
  nodup : (map.map Entry.node).Nodup
  keys : ∀ entry ∈ map, tree.key (.node entry.node) = some entry.key
  infos : ∀ entry ∈ map, tree.info (.node entry.node) = some entry.info

def Entry.pair (entry : Entry K V) : K × V := (entry.key, entry.info)

/-- The pairs of a map without their nodes. -/
def pairs (map : List (Entry K V)) : Multiset (K × V) := ↑(map.map Entry.pair)

/-- The pairs that the insertions of a run received. -/
def insertedPairs (events : List (TreeEvent K V)) : Multiset (K × V) :=
  ↑(events.filterMap fun
    | .insert key info _ => some (key, info)
    | _ => none)

/-- The pairs that the deletions of a run handed to the callbacks. -/
def deletedPairs (events : List (TreeEvent K V)) : Multiset (K × V) :=
  ↑(events.filterMap fun
    | .delete _ [.key (some key), .info (some info)] => some (key, info)
    | _ => none)

section Simulation

variable {comparison : Comparison K} {tree : RedBlackTreeStruct K V} {shape : ColorTree Nat}
  {map : List (Entry K V)}

/-- The simulation relation adds the well-formed shape to the representation. -/
structure Simulates (comparison : Comparison K) (tree : RedBlackTreeStruct K V)
    (map : List (Entry K V)) (shape : ColorTree Nat) : Prop where
  wellFormed : WellFormed comparison tree shape
  order : shape.inorder.Perm (map.map Entry.node)
  keys : ∀ entry ∈ map, tree.key (.node entry.node) = some entry.key
  infos : ∀ entry ∈ map, tree.info (.node entry.node) = some entry.info

theorem Simulates.represents (simulates : Simulates comparison tree map shape) :
    Represents tree map where
  reached a := by
    rw [simulates.wellFormed.stored.inTree_iff, simulates.order.mem_iff]
  nodup := simulates.order.nodup_iff.mp simulates.wellFormed.nodup
  keys := simulates.keys
  infos := simulates.infos

/-- Every stored node has an entry. -/
theorem Simulates.exists_entry (simulates : Simulates comparison tree map shape) {a : Nat}
    (mem : a ∈ shape.inorder) : ∃ entry ∈ map, entry.node = a := by
  obtain ⟨entry, inside, same⟩ := List.mem_map.mp (simulates.order.mem_iff.mp mem)
  exact ⟨entry, inside, same⟩

/-- A deletion of the tree removes one entry. -/
theorem Simulates.delete {next : RedBlackTreeStruct K V} {nextShape : ColorTree Nat}
    {first second : List (Entry K V)} {entry : Entry K V}
    (simulates : Simulates comparison tree (first ++ entry :: second) shape)
    (wellFormed : WellFormed comparison next nextShape)
    (deleted : Deleted tree next shape nextShape entry.node) :
    Simulates comparison next (first ++ second) nextShape := by
  obtain ⟨front, back, before, after⟩ := deleted.order
  have order := simulates.order
  rw [before, List.map_append, List.map_cons] at order
  have rest := (List.perm_middle.symm.trans (order.trans List.perm_middle)).cons_inv
  have nodup := simulates.represents.nodup
  rw [List.map_append, List.map_cons] at nodup
  have absent := (List.nodup_cons.mp (List.nodup_middle.mp nodup)).1
  have different (other : Entry K V) (mem : other ∈ first ++ second) : other.node ≠ entry.node := by
    intro same
    rw [← same, ← List.map_append] at absent
    exact absent (List.mem_map_of_mem mem)
  have older (other : Entry K V) (mem : other ∈ first ++ second) :
      other ∈ first ++ entry :: second := by
    rcases List.mem_append.mp mem with mem | mem <;> simp [mem]
  refine ⟨wellFormed, by rwa [after, List.map_append], ?_, ?_⟩
  · intro other mem
    rw [deleted.keys, if_neg (by simpa using different other mem)]
    exact simulates.keys other (older other mem)
  · intro other mem
    rw [deleted.infos, if_neg (by simpa using different other mem)]
    exact simulates.infos other (older other mem)

/-- An insertion into the tree adds one entry. -/
theorem Simulates.insert {next : RedBlackTreeStruct K V} {nextShape : ColorTree Nat} {key : K}
    {info : V} (simulates : Simulates comparison tree map shape)
    (wellFormed : WellFormed comparison next nextShape)
    (inserted : Inserted tree next shape nextShape key info) :
    (∀ entry ∈ map, entry.node ≠ tree.fresh) ∧
      Simulates comparison next (⟨tree.fresh, key, info⟩ :: map) nextShape := by
  have unused (entry : Entry K V) (mem : entry ∈ map) : entry.node ≠ tree.fresh := by
    have stored := simulates.order.mem_iff.mpr (List.mem_map_of_mem mem)
    exact Nat.ne_of_lt (simulates.wellFormed.bounded _ stored)
  obtain ⟨front, back, before, after⟩ := inserted.order
  refine ⟨unused, wellFormed, ?_, ?_, ?_⟩
  · rw [after]
    exact List.perm_middle.trans ((before ▸ simulates.order).cons _)
  · intro entry mem
    rw [inserted.keys]
    rcases List.mem_cons.mp mem with rfl | mem
    · simp
    · simp [unused entry mem, simulates.keys entry mem]
  · intro entry mem
    rw [inserted.infos]
    rcases List.mem_cons.mp mem with rfl | mem
    · simp
    · simp [unused entry mem, simulates.infos entry mem]

/-- The answer of a search is an answer of the map. -/
theorem Simulates.query {q : K} {answer : Option (Pointer Nat)}
    (simulates : Simulates comparison tree map shape)
    (answers : Answers comparison tree shape.inorder q answer) :
    MultimapStep comparison map (.query q answer) map := by
  cases answer with
  | none =>
      refine .missing fun entry mem => ?_
      exact answers.missing rfl _ (simulates.order.mem_iff.mpr (List.mem_map_of_mem mem)) _
        (simulates.keys entry mem)
  | some p =>
      obtain ⟨a, mem, rfl, k, key, equal⟩ := answers.found p rfl
      obtain ⟨entry, inside, rfl⟩ := simulates.exists_entry mem
      obtain rfl := Option.some.inj (key.symm.trans (simulates.keys entry inside))
      exact .found inside equal

/-- Every step of the tree is a step of the map. -/
theorem TreeStep.simulated {next : RedBlackTreeStruct K V} {event : TreeEvent K V}
    (simulates : ∃ shape, Simulates comparison tree map shape)
    (taken : TreeStep comparison.compare tree event next) :
    ∃ nextMap, MultimapStep comparison map event nextMap ∧
      ∃ shape, Simulates comparison next nextMap shape := by
  obtain ⟨shape, simulates⟩ := simulates
  have wellFormed := simulates.wellFormed
  cases taken with
  | @insert _ key info node done =>
      obtain ⟨result, nextShape, run, later, inserted⟩ := rbTreeInsert_spec wellFormed key info
      obtain ⟨rfl, rfl⟩ := Prod.mk.inj (Option.some.inj (run.symm.trans done))
      obtain ⟨unused, kept⟩ := simulates.insert later inserted
      exact ⟨_, .insert unused, nextShape, kept⟩
  | @delete _ z destroyed inside done =>
      have mem := (wellFormed.stored.inTree_iff _).mp inside
      obtain ⟨result, nextShape, run, later, deleted⟩ := rbDelete_spec wellFormed mem
      obtain ⟨rfl, rfl⟩ := Prod.mk.inj (Option.some.inj (run.symm.trans done))
      obtain ⟨entry, held, rfl⟩ := simulates.exists_entry mem
      obtain ⟨first, second, rfl⟩ := List.append_of_mem held
      rw [simulates.keys entry held, simulates.infos entry held]
      exact ⟨_, .delete, nextShape, simulates.delete later deleted⟩
  | @query q answer done =>
      obtain ⟨result, run, answers⟩ := rbExactQuery_spec wellFormed q
      obtain rfl := Option.some.inj (run.symm.trans done)
      exact ⟨map, simulates.query answers, shape, simulates⟩

end Simulation

section MultimapRun

variable {comparison : Comparison K} {events rest : List (TreeEvent K V)} {map : List (Entry K V)}

theorem insertedPairs_append (first second : List (TreeEvent K V)) :
    insertedPairs (first ++ second) = insertedPairs first + insertedPairs second := by
  simp [insertedPairs]

theorem deletedPairs_append (first second : List (TreeEvent K V)) :
    deletedPairs (first ++ second) = deletedPairs first + deletedPairs second := by
  simp [deletedPairs]

/-- One step keeps the balance of inserted and deleted pairs. -/
theorem MultimapStep.pairs {next : List (Entry K V)} {event : TreeEvent K V}
    (taken : MultimapStep comparison map event next) :
    pairs next + deletedPairs [event] = pairs map + insertedPairs [event] := by
  cases taken with
  | insert =>
      simp only [BandwidthLimiter.pairs, insertedPairs, deletedPairs, List.filterMap_cons,
        List.filterMap_nil, Multiset.coe_add, Multiset.coe_eq_coe, List.append_nil, List.map_cons]
      exact (List.perm_append_singleton ..).symm
  | delete =>
      simp only [BandwidthLimiter.pairs, insertedPairs, deletedPairs, List.filterMap_cons,
        List.filterMap_nil, Multiset.coe_add, Multiset.coe_eq_coe, List.append_nil, List.map_append,
        List.map_cons, List.append_assoc]
      exact List.perm_append_singleton .. |>.append_left _
  | found => rfl
  | missing => rfl

/-- The map holds the inserted pairs without the deleted ones. -/
theorem multimapRun_pairs (run : Run (MultimapStep comparison) [] events map) :
    pairs map + deletedPairs events = insertedPairs events := by
  refine run.history (fun events map => pairs map + deletedPairs events = insertedPairs events)
    rfl ?_
  intro events map event next kept taken
  have moved := taken.pairs
  rw [insertedPairs_append, deletedPairs_append, ← kept]
  calc
    pairs next + (deletedPairs events + deletedPairs [event])
        = pairs next + deletedPairs [event] + deletedPairs events := by
      rw [add_comm (deletedPairs events), add_assoc]
    _ = pairs map + insertedPairs [event] + deletedPairs events := by rw [moved]
    _ = pairs map + deletedPairs events + insertedPairs [event] := add_right_comm ..

/-- An entry stays until a deletion names its node. -/
theorem MultimapStep.stays {next : List (Entry K V)} {event : TreeEvent K V} {entry : Entry K V}
    (taken : MultimapStep comparison map event next) (mem : entry ∈ map)
    (other : ∀ destroyed, event ≠ .delete entry.node destroyed) : entry ∈ next := by
  cases taken with
  | insert => exact List.mem_cons_of_mem _ mem
  | delete =>
      rename_i first second removed
      rcases List.mem_append.mp mem with front | back
      · exact List.mem_append_left _ front
      · rcases List.mem_cons.mp back with rfl | back
        · exact absurd rfl (other _)
        · exact List.mem_append_right _ back
  | found => exact mem
  | missing => exact mem

theorem multimapRun_stays {last : List (Entry K V)} {entry : Entry K V}
    (run : Run (MultimapStep comparison) map rest last) (mem : entry ∈ map)
    (other : ∀ destroyed, .delete entry.node destroyed ∉ rest) : entry ∈ last := by
  refine run.history (fun events map =>
    (∀ destroyed, .delete entry.node destroyed ∉ events) → entry ∈ map) (fun _ => mem) ?_ other
  intro events map event next kept taken absent
  apply taken.stays (kept fun destroyed inside => absent destroyed (by simp [inside]))
  rintro destroyed rfl
  exact absent destroyed (by simp)

end MultimapRun

section Refinement

variable {comparison : Comparison K} {events : List (TreeEvent K V)} {tree : RedBlackTreeStruct K V}
  {map : List (Entry K V)} {shape : ColorTree Nat}

/-- Every run of the tree is a run of the map with the same results. -/
theorem treeRun_simulated
    (run : Run (TreeStep comparison.compare) (rbTreeCreate K V) events tree) :
    ∃ map, Run (MultimapStep comparison) [] events map ∧
      ∃ shape, Simulates comparison tree map shape := by
  refine run.simulate (fun tree map => ∃ shape, Simulates comparison tree map shape) ?_ ?_
  · exact ⟨.nil, rbTreeCreate_wellFormed comparison, List.Perm.refl _, nofun, nofun⟩
  · exact fun _ _ _ _ simulates taken => taken.simulated simulates

/-- Destroying the tree hands over every entry of the map once. -/
theorem Simulates.destroy (simulates : Simulates comparison tree map shape) :
    ∃ log, rbTreeDestroy tree = some log ∧
      log.Perm (map.flatMap fun entry => [.key (some entry.key), .info (some entry.info)]) := by
  refine ⟨_, rbTreeDestroy_spec simulates.wellFormed, ?_⟩
  have order := (shape.postorder_perm.trans simulates.order).flatMap_right fun a =>
    [Destroy.key (tree.key (.node a)), .info (tree.info (.node a))]
  rw [List.flatMap_map] at order
  refine order.trans (List.Perm.of_eq (List.flatMap_congr fun entry mem => ?_))
  rw [simulates.keys entry mem, simulates.infos entry mem]

/-- The node that an insertion returned keeps its pair until it is deleted itself. -/
theorem Simulates.stable (simulates : Simulates comparison tree map shape)
    (run : Run (MultimapStep comparison) [] events map) {first rest : List (TreeEvent K V)} {key : K}
    {info : V} {node : Pointer Nat} (inserted : events = first ++ .insert key info node :: rest) :
    ∃ a, node = .node a ∧ ((∀ destroyed, .delete a destroyed ∉ rest) →
      InTree tree.toLinks a ∧ tree.key (.node a) = some key ∧ tree.info (.node a) = some info) := by
  subst inserted
  obtain ⟨middle, -, after⟩ := run.split
  obtain ⟨start, taken, later⟩ := after.uncons
  cases taken with
  | @insert _ _ _ a unused =>
      refine ⟨a, rfl, fun other => ?_⟩
      have mem : ⟨a, key, info⟩ ∈ map := multimapRun_stays later (by simp) other
      exact ⟨(simulates.represents.reached a).mpr (List.mem_map_of_mem mem), simulates.keys _ mem,
        simulates.infos _ mem⟩

/-- The tree refines a multimap with stable nodes, and every operation returns its result. -/
theorem treeRun_multimap
    (run : Run (TreeStep comparison.compare) (rbTreeCreate K V) events tree) :
    ∃ map, Run (MultimapStep comparison) [] events map ∧ Represents tree map ∧
      pairs map + deletedPairs events = insertedPairs events ∧
      (∀ (first rest : List (TreeEvent K V)) key info node,
        events = first ++ .insert key info node :: rest →
        ∃ a, node = .node a ∧ ((∀ destroyed, TreeEvent.delete a destroyed ∉ rest) →
          InTree tree.toLinks a ∧ tree.key (.node a) = some key ∧
            tree.info (.node a) = some info)) ∧
      (∀ entry ∈ map, ∃ next, rbDelete tree (.node entry.node) =
        some (next, [.key (some entry.key), .info (some entry.info)])) ∧
      (∀ q, (∃ entry ∈ map, comparison.compare entry.key q = 0 ∧
          rbExactQuery comparison.compare (some tree) q = some (some (.node entry.node))) ∨
        ((∀ entry ∈ map, comparison.compare entry.key q ≠ 0) ∧
          rbExactQuery comparison.compare (some tree) q = some none)) ∧
      (∀ q, rbExactQuery comparison.compare (none : Option (RedBlackTreeStruct K V)) q =
        some none) ∧
      ∃ log, rbTreeDestroy tree = some log ∧
        log.Perm (map.flatMap fun entry => [.key (some entry.key), .info (some entry.info)]) := by
  obtain ⟨map, abstract, shape, simulates⟩ := treeRun_simulated run
  have wellFormed := simulates.wellFormed
  refine ⟨map, abstract, simulates.represents, multimapRun_pairs abstract, ?_, ?_, ?_,
    fun _ => rfl, simulates.destroy⟩
  · exact fun _ _ _ _ _ inserted => simulates.stable abstract inserted
  · intro entry mem
    have inside := simulates.order.mem_iff.mpr (List.mem_map_of_mem mem)
    obtain ⟨next, -, done, -, -⟩ := rbDelete_spec wellFormed inside
    rw [simulates.keys entry mem, simulates.infos entry mem] at done
    exact ⟨next, done⟩
  · intro q
    obtain ⟨answer, done, answers⟩ := rbExactQuery_spec wellFormed q
    cases simulates.query answers with
    | found mem equal => exact .inl ⟨_, mem, equal, done⟩
    | missing unequal => exact .inr ⟨unequal, done⟩

theorem lastKey_multimap : ∃ map : List (Entry Int Int),
    Represents lastKey map ∧ pairs map + {(5, 50)} = {(5, 50), (5, 51)} := by
  obtain ⟨map, -, represents, balance, -⟩ := treeRun_multimap lastKey_run
  exact ⟨map, represents, balance⟩

end Refinement

end BandwidthLimiter
