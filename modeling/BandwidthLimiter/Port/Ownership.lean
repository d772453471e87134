import BandwidthLimiter.Port.Table
import BandwidthLimiter.Tree.Ownership

namespace BandwidthLimiter
open Foundation

/-- The port tree with its blocks; a key lies inside the block of its entry. -/
structure RegisterEnvHeap where
  portRb : Option (TreeHeap uint32Comparison PortStruct)

/-- The insertion of an entry; its first `temp_port` is lost when the pointer moves to the entry. -/
def insertPort (malloc : List Nat → Nat) (state : TreeHeap uint32Comparison PortStruct × List Nat)
    (entry : PortStr) : TreeHeap uint32Comparison PortStruct × List Nat :=
  let (portData, live) := safeMalloc malloc state.2
  let (_, live) := safeMalloc malloc live
  state.1.insert malloc live ⟨portData, entry.portNo⟩
    ⟨portData, .ofLimits entry.portNo entry.upLimit entry.downLimit entry.latency⟩

/-- The function `do_register` with its blocks. -/
def doRegisterIn (malloc : List Nat → Nat) (live : List Nat) (port upLimit downLimit latency : Int) :
    RegisterEnvHeap × List Nat :=
  if port = -1 then ({ portRb := none }, live)
  else
    let (portRb, live) := insertPort malloc (TreeHeap.create _ _ malloc live)
      ⟨UInt32.ofInt port, upLimit, downLimit, UInt32.ofInt latency⟩
    ({ portRb := some portRb }, live)

/-- The function `do_register_from_config` with its blocks, behind the parser. -/
def doRegisterFromConfigIn (malloc : List Nat → Nat) (live : List Nat) (entries : List PortStr) :
    RegisterEnvHeap × List Nat :=
  let (portRb, live) := entries.foldl (insertPort malloc) (TreeHeap.create _ _ malloc live)
  ({ portRb := some portRb }, live)

/-- The two registrations with what they read. -/
inductive PortSource where
  | environment (port upLimit downLimit latency : Int)
  | config (entries : List PortStr)

namespace PortSource

def register : PortSource → RegisterEnvStruct
  | .environment port upLimit downLimit latency => doRegister port upLimit downLimit latency
  | .config entries => doRegisterFromConfig entries

def registerIn (malloc : List Nat → Nat) (live : List Nat) :
    PortSource → RegisterEnvHeap × List Nat
  | .environment port upLimit downLimit latency =>
      doRegisterIn malloc live port upLimit downLimit latency
  | .config entries => doRegisterFromConfigIn malloc live entries

/-- The number of ports that get an entry. -/
def count : PortSource → Nat
  | .environment port _ _ _ => if port = -1 then 0 else 1
  | .config entries => entries.length

end PortSource

namespace RegisterEnvHeap

/-- The table without the addresses. -/
def forget (env : RegisterEnvHeap) : RegisterEnvStruct where
  portRb := env.portRb.map TreeHeap.forget

/-- A write through the information pointer of the node that a search finds. -/
def update (env : RegisterEnvHeap) (port : UInt32) (change : PortStruct → PortStruct) :
    RegisterEnvHeap where
  portRb := env.portRb.map fun heap =>
    match heap.tree.exactQuery (.onStack port) with
    | none => heap
    | some node => heap.setValue node (change (heap.tree.info node).value)

/-- The function `__reg_clean_up__`. -/
def regCleanUp (env : RegisterEnvHeap) (live : List Nat) : Except Fault (List Nat) :=
  match env.portRb with
  | none => .ok live
  | some heap => heap.destroy (uint32Destructor _) live

/-- The blocks of the tree. -/
def owned (env : RegisterEnvHeap) : List Nat :=
  match env.portRb with
  | none => []
  | some heap => heap.owned (uint32Destructor _)

variable (env : RegisterEnvHeap) (port : UInt32) (change : PortStruct → PortStruct)

theorem forget_update : (env.update port change).forget = env.forget.update port change := by
  rcases env with ⟨_ | heap⟩
  · rfl
  · simp only [forget, update, RegisterEnvStruct.update, RegisterEnvStruct.write, Option.map_some,
      Option.bind_some, heap.forget_exactQuery]
    cases heap.tree.exactQuery (.onStack port) with
    | none => rfl
    | some node => simp

/-- A write keeps the blocks of the tree. -/
theorem owned_update : (env.update port change).owned = env.owned := by
  rcases env with ⟨_ | heap⟩
  · rfl
  · simp only [owned, update, Option.map_some]
    cases heap.tree.exactQuery (.onStack port) with
    | none => rfl
    | some node => exact TreeHeap.setValue_owned Destructor.uint32Destructor_ofAddress ..

variable {env} {live rest : List Nat}

theorem regCleanUp_spec (owned : live.Perm (env.owned ++ rest)) :
    ∃ after, env.regCleanUp live = .ok after ∧ after.Perm rest := by
  rcases env with ⟨_ | heap⟩
  · exact ⟨live, rfl, owned⟩
  · obtain ⟨after, done, kept, -⟩ := TreeHeap.destroy_spec owned
    exact ⟨after, done, kept⟩

end RegisterEnvHeap

section Registration

variable {malloc : List Nat → Nat} {live rest : List Nat}

/-- Each entry takes a block for itself and one for its node, and it loses one. -/
theorem insertPorts_owned (fresh : ∀ live, malloc live ∉ live) (ports : List PortStr)
    {heap : TreeHeap uint32Comparison PortStruct}
    (owned : live.Perm (heap.owned (uint32Destructor _) ++ rest)) (distinct : live.Nodup) :
    ∃ next after lost, ports.foldl (insertPort malloc) (heap, live) = (next, after) ∧
      after.Perm (next.owned (uint32Destructor _) ++ (lost ++ rest)) ∧ after.Nodup ∧
      lost.length = ports.length := by
  induction ports generalizing heap live rest with
  | nil => exact ⟨heap, live, [], rfl, owned, distinct, rfl⟩
  | cons entry ports ih =>
      let portData := malloc live
      let tempPort := malloc (portData :: live)
      let node := malloc (tempPort :: portData :: live)
      have held : ((insertPort malloc (heap, live) entry).1.owned (uint32Destructor _)).Perm
          (portData :: node :: heap.owned (uint32Destructor _)) := TreeHeap.insert_owned ..
      have added : (node :: tempPort :: portData :: live).Perm
          ((insertPort malloc (heap, live) entry).1.owned (uint32Destructor _) ++ (tempPort :: rest)) := by
        have parts := (owned.cons portData).cons tempPort |>.cons node
        apply parts.trans
        apply List.Perm.trans _ (held.symm.append_right _)
        rw [List.perm_iff_count]
        intro block
        simp only [List.count_append, List.count_cons, List.cons_append]
        omega
      have unused : (node :: tempPort :: portData :: live).Nodup :=
        safeMalloc_nodup fresh (safeMalloc_nodup fresh (safeMalloc_nodup fresh distinct))
      obtain ⟨next, after, lost, run, kept, nodup, count⟩ := ih added unused
      refine ⟨next, after, lost ++ [tempPort], run, ?_, nodup, by simp [count]⟩
      rwa [List.append_assoc]

theorem insertPorts_forget (malloc : List Nat → Nat) (ports : List PortStr)
    (heap : TreeHeap uint32Comparison PortStruct) (live : List Nat) :
    (ports.foldl (insertPort malloc) (heap, live)).1.forget =
      ports.foldl (fun tree entry => tree.insert entry.portNo
        (.ofLimits entry.portNo entry.upLimit entry.downLimit entry.latency)) heap.forget := by
  induction ports generalizing heap live with
  | nil => rfl
  | cons entry ports ih =>
      have first : (insertPort malloc (heap, live) entry).1.forget = heap.forget.insert entry.portNo
          (.ofLimits entry.portNo entry.upLimit entry.downLimit entry.latency) :=
        heap.forget_insert ..
      rw [List.foldl_cons, List.foldl_cons, ← first]
      exact ih _ _

namespace PortSource

theorem registerIn_forget (malloc : List Nat → Nat) (live : List Nat) (source : PortSource) :
    (source.registerIn malloc live).1.forget = source.register := by
  cases source with
  | environment port upLimit downLimit latency =>
      simp only [registerIn, doRegisterIn, register, doRegister]
      split
      · rfl
      · exact congrArg (fun tree => (⟨some tree⟩ : RegisterEnvStruct))
          (insertPorts_forget malloc [_] (TreeHeap.create _ _ malloc live).1 _)
  | config entries =>
      exact congrArg (fun tree => (⟨some tree⟩ : RegisterEnvStruct))
        (insertPorts_forget malloc entries (TreeHeap.create _ _ malloc live).1 _)

/-- A registration owns the blocks of its tree, and it loses a block for each entry. -/
theorem registerIn_owned (fresh : ∀ live, malloc live ∉ live) (source : PortSource)
    (distinct : live.Nodup) : ∃ env after lost, source.registerIn malloc live = (env, after) ∧
      after.Perm (env.owned ++ (lost ++ live)) ∧ after.Nodup ∧ lost.length = source.count := by
  have inserted (ports : List PortStr) := insertPorts_owned fresh ports
    (.of_eq (TreeHeap.create_owned (uint32Destructor PortStruct)))
    (TreeHeap.create_nodup fresh distinct)
  cases source with
  | environment port upLimit downLimit latency =>
      by_cases none' : port = -1
      · exact ⟨⟨none⟩, live, [], by simp [registerIn, doRegisterIn, none'], .refl _, distinct,
          by simp [count, none']⟩
      · obtain ⟨tree, after, lost, run, kept, nodup, count⟩ :=
          inserted [⟨UInt32.ofInt port, upLimit, downLimit, UInt32.ofInt latency⟩]
        rw [List.foldl_cons, List.foldl_nil] at run
        exact ⟨⟨some tree⟩, after, lost, by simp [registerIn, doRegisterIn, none', run], kept, nodup,
          by simp [PortSource.count, none', count]⟩
  | config entries =>
      obtain ⟨tree, after, lost, run, kept, nodup, count⟩ := inserted entries
      exact ⟨⟨some tree⟩, after, lost, by simp [registerIn, doRegisterFromConfigIn, run], kept, nodup,
        count⟩

end PortSource

end Registration

end BandwidthLimiter
