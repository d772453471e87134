import BandwidthLimiter.Limiter.Effects
import BandwidthLimiter.Port.Ownership
import BandwidthLimiter.Socket.Ownership

namespace BandwidthLimiter
open Foundation

def memSockStruct : UInt32 := 0x01

def memEnvStr : UInt32 := 0x03

/-- The controller with the blocks of its two structures, of its trees, and all blocks in use. -/
structure ControllerHeap where
  thisFlag : UInt32
  socStr : Nat
  regEnvStr : Nat
  table : RegisterEnvHeap
  sockets : SockHeap

namespace ControllerHeap

/-- The function `__init_env__` with its blocks. -/
def initEnv (malloc : List Nat → Nat) (live : List Nat) (source : PortSource) : ControllerHeap :=
  let thisFlag : UInt32 := 0
  let (socStr, live) := safeMalloc malloc live
  let thisFlag := thisFlag ||| memSockStruct
  let (regEnvStr, live) := safeMalloc malloc live
  let thisFlag := thisFlag ||| memEnvStr
  let (table, live) := source.registerIn malloc live
  { thisFlag, socStr, regEnvStr, table, sockets := .setup malloc live }

/-- The function `__clean_up__`; both tests join the flag with a constant by a logical `and`. -/
def cleanUp (contStr : ControllerHeap) : Except Fault (List Nat) := do
  let live ←
    if contStr.thisFlag ≠ 0 ∧ memEnvStr ≠ 0 then do
      let live ← contStr.table.regCleanUp contStr.sockets.live
      freeBlocks live [contStr.regEnvStr]
    else pure contStr.sockets.live
  if contStr.thisFlag ≠ 0 ∧ memSockStruct ≠ 0 then do
    let live ← { contStr.sockets with live }.cleanSock
    freeBlocks live [contStr.socStr]
  else pure live

/-- The controller without the addresses. -/
def forget (contStr : ControllerHeap) : ControllerStruct where
  socStr := contStr.sockets.forget
  regEnvStr := contStr.table.forget

end ControllerHeap

/-- A write on the heap. -/
def Effect.applyIn (malloc : List Nat → Nat) (contStr : ControllerHeap) :
    Effect → Except Fault ControllerHeap
  | .store op => (op.applyIn malloc contStr.sockets).map fun sockets => { contStr with sockets }
  | .table port change => .ok { contStr with table := contStr.table.update port change }

def HeapEffectStep (malloc : List Nat → Nat) (contStr : ControllerHeap) (effect : Effect)
    (next : ControllerHeap) : Prop :=
  effect.applyIn malloc contStr = .ok next

/-- A section on the heap: it steps on the values, and it performs its writes. -/
structure HeapStep (malloc : List Nat → Nat) (contStr : ControllerHeap) (event : Section)
    (next : ControllerHeap) : Prop where
  values : SectionStep contStr.forget event next.forget
  writes : Run (HeapEffectStep malloc) contStr (event.effects contStr.forget) next

namespace ControllerHeap

/-- The blocks in use are those of the controller, the lost ones and those of `base`, each once. -/
structure Owns (base lost : List Nat) (contStr : ControllerHeap) : Prop where
  started : contStr.thisFlag ≠ 0
  sockets : contStr.sockets.Owns
    (contStr.socStr :: contStr.regEnvStr :: (contStr.table.owned ++ (lost ++ base)))

variable {malloc : List Nat → Nat} {base lost : List Nat} {contStr : ControllerHeap}

/-- A write on the heap ends the process where the write on the values does, and it keeps the
ownership. -/
theorem Owns.effect (owns : contStr.Owns base lost) (fresh : ∀ live, malloc live ∉ live)
    (effect : Effect) :
    (effect.applyIn malloc contStr = .error .nullDereference ∧
      effect.apply contStr.forget = .error .nullDereference) ∨
    ∃ next, effect.applyIn malloc contStr = .ok next ∧ next.Owns base lost ∧
      effect.apply contStr.forget = .ok next.forget := by
  cases effect with
  | store op =>
      rcases SockOp.applyIn_spec owns.sockets fresh op with ⟨ended, same⟩ | ⟨sockets, done, kept, same⟩
      · have stopped : op.apply contStr.forget.socStr = .error .nullDereference := same
        left
        simp [Effect.applyIn, Effect.apply, ended, stopped, Except.map]
      · have stepped : op.apply contStr.forget.socStr = .ok sockets.forget := same
        refine .inr ⟨{ contStr with sockets }, ?_, ⟨owns.started, kept⟩, ?_⟩
        · simp [Effect.applyIn, done, Except.map]
        · rw [Effect.apply, stepped]
          rfl
  | table port change =>
      refine .inr ⟨{ contStr with table := contStr.table.update port change }, rfl,
        ⟨owns.started, ?_⟩, ?_⟩
      · rw [RegisterEnvHeap.owned_update]
        exact owns.sockets
      · simp only [Effect.apply, forget, RegisterEnvHeap.forget_update]

/-- Each section has its step on the heap. -/
theorem Owns.section (owns : contStr.Owns base lost) (fresh : ∀ live, malloc live ∉ live)
    {event : Section} {values : ControllerStruct} (taken : SectionStep contStr.forget event values) :
    ∃ next, HeapStep malloc contStr event next ∧ next.Owns base lost ∧ next.forget = values := by
  obtain ⟨next, run, kept, rfl⟩ := taken.effects.simulate
    (fun values (contStr : ControllerHeap) => contStr.Owns base lost ∧ contStr.forget = values)
    ⟨owns, rfl⟩ fun values contStr effect later ⟨owns, same⟩ stepped => by
      subst same
      rcases owns.effect fresh effect with ⟨-, ended⟩ | ⟨next, done, kept, image⟩
      · cases stepped.symm.trans ended
      · exact ⟨next, done, kept, Except.ok.inj (image.symm.trans stepped)⟩
  exact ⟨next, ⟨taken, run⟩, kept, rfl⟩

/-- A step on the heap keeps the ownership. -/
theorem Owns.step (owns : contStr.Owns base lost) (fresh : ∀ live, malloc live ∉ live)
    {event : Section} {next : ControllerHeap} (taken : HeapStep malloc contStr event next) :
    next.Owns base lost := by
  apply taken.writes.invariant (fun contStr => contStr.Owns base lost) owns
  intro contStr effect next owns done
  rcases owns.effect fresh effect with ⟨ended, -⟩ | ⟨later, stepped, kept, -⟩
  · cases done.symm.trans ended
  · obtain rfl := Except.ok.inj (stepped.symm.trans done)
    exact kept

/-- The start takes the blocks of the structures and of the ports. -/
theorem owns_initEnv (fresh : ∀ live, malloc live ∉ live) (distinct : base.Nodup)
    (source : PortSource) : ∃ lost, (initEnv malloc base source).Owns base lost ∧
      lost.length = source.count := by
  let socStr := malloc base
  let regEnvStr := malloc (socStr :: base)
  have unused : (regEnvStr :: socStr :: base).Nodup :=
    safeMalloc_nodup fresh (safeMalloc_nodup fresh distinct)
  obtain ⟨env, after, lost, run, kept, nodup, count⟩ := source.registerIn_owned fresh unused
  have start : initEnv malloc base source = ⟨0 ||| memSockStruct ||| memEnvStr, socStr, regEnvStr,
      env, .setup malloc after⟩ := by
    simp only [initEnv, safeMalloc, socStr, regEnvStr] at run ⊢
    rw [run]
  have flagged : (0 : UInt32) ||| memSockStruct ||| memEnvStr ≠ 0 := by decide
  rw [start]
  refine ⟨lost, ⟨flagged, (SockHeap.owns_setup fresh nodup).perm ?_⟩, count⟩
  calc
    List.Perm after (env.owned ++ (lost ++ regEnvStr :: socStr :: base)) := kept
    List.Perm _ (regEnvStr :: socStr :: (env.owned ++ (lost ++ base))) := by
      rw [← List.append_assoc, ← List.append_assoc]
      exact List.perm_middle.trans (List.perm_middle.cons _)
    List.Perm _ (socStr :: regEnvStr :: (env.owned ++ (lost ++ base))) := List.Perm.swap ..

/-- The clean-up frees the blocks of the controller. -/
theorem Owns.cleanUp (owns : contStr.Owns base lost) :
    ∃ left, contStr.cleanUp = .ok left ∧ left.Perm (lost ++ base) := by
  have split : contStr.sockets.live.Perm (contStr.table.owned ++ (contStr.regEnvStr ::
      (contStr.sockets.owned ++ (contStr.socStr :: (lost ++ base))))) := by
    apply owns.sockets.owned.trans
    rw [List.perm_iff_count]
    intro block
    simp only [List.count_append, List.count_cons]
    omega
  obtain ⟨ports, first, kept⟩ := RegisterEnvHeap.regCleanUp_spec split
  obtain ⟨env, second, kept, -⟩ := freeBlocks_spec
    (show ports.Perm ([contStr.regEnvStr] ++ _) from kept)
  obtain ⟨sockets, third, kept⟩ :=
    SockHeap.cleanSock_spec (show { contStr.sockets with live := env }.live.Perm _ from kept)
  obtain ⟨left, fourth, kept, -⟩ := freeBlocks_spec
    (show sockets.Perm ([contStr.socStr] ++ _) from kept)
  refine ⟨left, ?_, kept⟩
  have flags : (contStr.thisFlag ≠ 0 ∧ memEnvStr ≠ 0) ∧ (contStr.thisFlag ≠ 0 ∧ memSockStruct ≠ 0) :=
    ⟨⟨owns.started, by decide⟩, owns.started, by decide⟩
  rw [ControllerHeap.cleanUp, if_pos flags.1, first]
  simp only [Bind.bind, Except.bind, second, if_pos flags.2, third, fourth]

/-- The blocks that stay in use are distinct. -/
theorem Owns.distinct (owns : contStr.Owns base lost) : (lost ++ base).Nodup := by
  have nodup := (owns.sockets.owned.nodup_iff).mp owns.sockets.distinct
  have kept : (lost ++ base).Sublist (contStr.sockets.owned ++
      contStr.socStr :: contStr.regEnvStr :: (contStr.table.owned ++ (lost ++ base))) :=
    ((((List.sublist_append_right _ _).cons _).cons _).trans (List.sublist_append_right _ _))
  exact nodup.sublist kept

theorem forget_initEnv (malloc : List Nat → Nat) (live : List Nat) (source : PortSource) :
    (initEnv malloc live source).forget = BandwidthLimiter.initEnv source.register :=
  congrArg BandwidthLimiter.initEnv (source.registerIn_forget malloc _)

variable {source : PortSource} {events : List Section} {values : ControllerStruct}

/-- Every run of locked sections has its run on the heap, and after it the clean-up frees each block
of the library exactly once, except one lost block for each registered port. -/
theorem sections_cleanUp (fresh : ∀ live, malloc live ∉ live) (distinct : base.Nodup)
    (run : Run SectionStep (BandwidthLimiter.initEnv source.register) events values) :
    (∃ contStr, Run (HeapStep malloc) (initEnv malloc base source) events contStr ∧
      contStr.forget = values) ∧
    ∀ contStr, Run (HeapStep malloc) (initEnv malloc base source) events contStr →
      ∃ left lost, contStr.cleanUp = .ok left ∧ left.Perm (lost ++ base) ∧ left.Nodup ∧
        lost.length = source.count := by
  obtain ⟨lost, owns, count⟩ := owns_initEnv fresh distinct source
  constructor
  · obtain ⟨contStr, heapRun, -, same⟩ := run.simulate
      (fun values (contStr : ControllerHeap) => contStr.Owns base lost ∧ contStr.forget = values)
      ⟨owns, forget_initEnv malloc base source⟩
      fun _ _ _ _ ⟨owns, same⟩ taken => owns.section fresh (same ▸ taken)
    exact ⟨contStr, heapRun, same⟩
  · intro contStr heapRun
    have kept := heapRun.invariant (fun contStr => contStr.Owns base lost) owns
      fun _ _ _ owns taken => owns.step fresh taken
    obtain ⟨left, done, rest⟩ := kept.cleanUp
    exact ⟨left, lost, done, rest, rest.symm.nodup kept.distinct, count⟩

/-- The start on one port takes 14 blocks; after a connection of a server and the clean-up, only the
lost block of the port stays in use. -/
theorem server_cleanUp : ∃ (contStr : ControllerHeap) (left : List Nat),
    (initEnv nextBlock [] (.environment 80 5 5 0)).sockets.live.length = 14 ∧
    Run (HeapStep nextBlock) (initEnv nextBlock [] (.environment 80 5 5 0))
      [.bind 3 ⟨afInet, 0, 80⟩, .accept 3 4] contStr ∧
    contStr.cleanUp = .ok left ∧ left.length = 1 := by
  have run : Run SectionStep (BandwidthLimiter.initEnv (doRegister 80 5 5 0))
      [.bind 3 ⟨afInet, 0, 80⟩, .accept 3 4] _ := .cons (.bind ..) (.cons (.accept ..) .start)
  let source : PortSource := .environment 80 5 5 0
  obtain ⟨⟨contStr, heapRun, -⟩, freed⟩ :=
    sections_cleanUp nextBlock_fresh List.nodup_nil (show Run SectionStep
      (BandwidthLimiter.initEnv source.register) _ _ from run)
  obtain ⟨left, lost, done, rest, -, count⟩ := freed contStr heapRun
  exact ⟨contStr, left, rfl, heapRun, done, by rw [rest.length_eq, List.append_nil, count]; rfl⟩

end ControllerHeap

end BandwidthLimiter
