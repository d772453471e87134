import BandwidthLimiter.Limiter.Section

namespace BandwidthLimiter
open Foundation

/-- What the calls of a run can have tied together: socket numbers with the registered ports that they
were bound or connected to, and descriptors with the socket numbers that they come from. -/
structure Lineage where
  ports : List (Int × UInt32)
  roots : List (Int × Int)
  deriving DecidableEq

namespace Lineage

/-- The descriptor comes from a socket of the port. -/
def Descends (lineage : Lineage) (fd : Int) (port : UInt32) : Prop :=
  ∃ root, (fd, root) ∈ lineage.roots ∧ (root, port) ∈ lineage.ports

def bound (lineage : Lineage) (fd : Int) (port : UInt32) : Lineage :=
  { lineage with ports := (fd, port) :: lineage.ports }

def accepted (lineage : Lineage) (fd acpFd : Int) : Lineage :=
  if fd ∈ lineage.ports.map Prod.fst then { lineage with roots := (acpFd, fd) :: lineage.roots }
  else lineage

/-- The new number comes from every socket that the old number comes from. -/
def copied (lineage : Lineage) (oldFd newFd : Int) : Lineage :=
  { lineage with roots :=
      (lineage.roots.filter (·.1 = oldFd)).map (fun entry => (newFd, entry.2)) ++ lineage.roots }

/-- The lineage after one section; a closed number keeps its own. -/
def step (env : RegisterEnvStruct) (lineage : Lineage) : Section → Lineage
  | .bind fd addr => if isPortRegistered env addr.port then lineage.bound fd addr.port else lineage
  | .connect fd addr =>
      if isPortRegistered env addr.port then (lineage.bound fd addr.port).accepted fd fd else lineage
  | .accept fd acpFd => if acpFd ≠ -1 then lineage.accepted fd acpFd else lineage
  | .dup oldFd newFd => if newFd ≠ -1 then lineage.copied oldFd newFd else lineage
  | .dup2 oldFd newFd returnVal => if returnVal ≠ -1 then lineage.copied oldFd newFd else lineage
  | _ => lineage

/-- The lineage of a run from the registration `env`. -/
def after (env : RegisterEnvStruct) (events : List Section) : Lineage :=
  events.foldl (step env) ⟨[], []⟩

/-- Every entry of the store has its lineage. -/
structure Covers (lineage : Lineage) (soS : SockStruct) : Prop where
  ports : ∀ entry ∈ soS.sockRb.entries, (entry.1, entry.2.port) ∈ lineage.ports
  roots : ∀ entry ∈ soS.acpSocketRb.entries, (entry.1, entry.2.rootFdNumber) ∈ lineage.roots

variable {lineage : Lineage} {soS : SockStruct}

/-- A store with other counters has the same lineage. -/
theorem Covers.setCount (covers : lineage.Covers soS) (node : soS.sockRb.Node) (count : Int) :
    ∀ entry ∈ (soS.sockRb.setInfo node { soS.sockRb.info node with refCount := count }).entries,
      (entry.1, entry.2.port) ∈ lineage.ports := by
  obtain ⟨first, second, before, after⟩ := soS.sockRb.entries_setInfo node
    { soS.sockRb.info node with refCount := count }
  intro entry mem
  have old := covers.ports
  rw [before] at old
  rw [after] at mem
  rcases List.mem_append.mp mem with inside | inside
  · exact old entry (List.mem_append_left _ inside)
  · rcases List.mem_cons.mp inside with rfl | inside
    · exact old (soS.sockRb.key node, soS.sockRb.info node) (by simp)
    · exact old entry (List.mem_append_right _ (List.mem_cons_of_mem _ inside))

theorem Covers.initSock (covers : lineage.Covers soS) (fd : Int) (port : UInt32) :
    (lineage.bound fd port).Covers (initSock soS fd port).1 := by
  have wider : (lineage.bound fd port).Covers soS :=
    ⟨fun entry mem => List.mem_cons_of_mem _ (covers.ports entry mem), covers.roots⟩
  cases found : soS.sockRb.get fd with
  | some root => rwa [initSock_old found]
  | none =>
      rw [initSock_new found]
      constructor
      · intro entry mem
        rcases List.mem_cons.mp ((soS.sockRb.entries_insert fd ⟨port, 0⟩).mem_iff.mp mem) with
          rfl | old
        · exact List.mem_cons_self
        · exact wider.ports entry old
      · exact wider.roots

theorem Covers.accepted (covers : lineage.Covers soS) (fd acpFd : Int) :
    (lineage.accepted fd acpFd).Covers soS := by
  unfold Lineage.accepted
  split
  · exact ⟨covers.ports, fun entry mem => List.mem_cons_of_mem _ (covers.roots entry mem)⟩
  · exact covers

theorem Covers.registerSock (covers : lineage.Covers soS) (fd acpFd : Int) :
    (lineage.accepted fd acpFd).Covers (registerSock soS fd acpFd).1 := by
  have wider := covers.accepted fd acpFd
  unfold BandwidthLimiter.registerSock
  split
  · rename_i node found fresh
    have rooted : fd ∈ lineage.ports.map Prod.fst := by
      have entry := RbTree.mem_of_get (RbTree.get_of_found found)
      exact List.mem_map_of_mem (covers.ports _ entry)
    constructor
    · exact wider.setCount node _
    · intro entry mem
      rcases List.mem_cons.mp ((soS.acpSocketRb.entries_insert acpFd _).mem_iff.mp mem) with
        rfl | old
      · simp [Lineage.accepted, rooted]
      · exact wider.roots entry old
  · exact wider

theorem Covers.copyFd (covers : lineage.Covers soS) (oldFd newFd : Int) :
    (lineage.copied oldFd newFd).Covers (copyFd soS oldFd newFd).1 := by
  have wider : (lineage.copied oldFd newFd).Covers soS :=
    ⟨covers.ports, fun entry mem => List.mem_append_right _ (covers.roots entry mem)⟩
  cases found : soS.acpSocketRb.get oldFd with
  | none => rwa [copyFd_absent found]
  | some acp =>
      rw [copyFd_present found]
      constructor
      · exact wider.ports
      · intro entry mem
        rcases List.mem_cons.mp ((soS.acpSocketRb.entries_insert newFd acp).mem_iff.mp mem) with
          rfl | old
        · have source := covers.roots _ (RbTree.mem_of_get found)
          exact List.mem_append_left _ (List.mem_map.mpr ⟨_, List.mem_filter.mpr ⟨source, by simp⟩, rfl⟩)
        · exact wider.roots entry old

theorem Covers.unregister (covers : lineage.Covers soS) {fd : Int} {next : SockStruct} {done : Bool}
    (result : unregisterSocketDescriptor soS fd = .ok (next, done)) : lineage.Covers next := by
  unfold unregisterSocketDescriptor at result
  split at result
  · obtain ⟨rfl, -⟩ := Prod.mk.inj (Except.ok.inj result)
    exact covers
  · rename_i acpNode found
    dsimp only at result
    split at result
    · cases result
    · rename_i rootNode rooted
      obtain ⟨rfl, -⟩ := Prod.mk.inj (Except.ok.inj result)
      have counted := covers.setCount rootNode ((soS.sockRb.info rootNode).refCount - 1)
      have removed := RbTree.entries_delete (soS.sockRb.setInfo rootNode
        { soS.sockRb.info rootNode with refCount := (soS.sockRb.info rootNode).refCount - 1 }) rootNode
      constructor
      · intro entry mem
        dsimp only at mem
        split at mem
        · exact counted entry (removed.mem_iff.mpr (List.mem_cons_of_mem _ mem))
        · exact counted entry mem
      · intro entry mem
        exact covers.roots entry ((soS.acpSocketRb.entries_delete acpNode).mem_iff.mpr
          (List.mem_cons_of_mem _ mem))

end Lineage

section Descent

variable {env : RegisterEnvStruct} {events : List Section} {contStr next : ControllerStruct}
  {event : Section} {lineage : Lineage}

/-- One section keeps the lineage of every entry. -/
theorem SectionStep.covers (covers : lineage.Covers contStr.socStr)
    (ports : ∀ q, isPortRegistered contStr.regEnvStr q = isPortRegistered env q)
    (taken : SectionStep contStr event next) : (lineage.step env event).Covers next.socStr := by
  cases taken with
  | bind fd addr =>
      simp only [Lineage.step, BandwidthLimiter.bind, regisNewCreatedSocket, ports]
      split
      · exact covers.initSock fd addr.port
      · exact covers
  | connect fd addr =>
      have bound := covers.initSock fd addr.port
      simp only [Lineage.step, BandwidthLimiter.connect, regisNewCreatedSocket, ports]
      split
      · split
        · exact bound.registerSock fd fd
        · exact bound.accepted fd fd
      · exact covers
  | accept fd acpFd =>
      simp only [Lineage.step, BandwidthLimiter.accept]
      split
      · exact covers.registerSock fd acpFd
      · exact covers
  | close done =>
      obtain ⟨soS, returned, result, rfl⟩ := close_done done
      exact covers.unregister result
  | dup oldFd newFd =>
      simp only [Lineage.step, BandwidthLimiter.dup]
      split
      · exact covers.copyFd oldFd newFd
      · exact covers
  | dup2 oldFd newFd returnVal =>
      simp only [Lineage.step, BandwidthLimiter.dup2]
      split
      · exact covers.copyFd oldFd newFd
      · exact covers
  | enter done => exact (preOp_budget done).sockets ▸ covers
  | leave done => exact (leave_budget done).sockets ▸ covers

/-- After every run, each entry of the store has its lineage. -/
theorem sectionRun_covers (run : Run SectionStep (initEnv env) events contStr) :
    (Lineage.after env events).Covers contStr.socStr ∧
      ∀ q, isPortRegistered contStr.regEnvStr q = isPortRegistered env q := by
  refine run.history (fun events contStr => (Lineage.after env events).Covers contStr.socStr ∧
    ∀ q, isPortRegistered contStr.regEnvStr q = isPortRegistered env q) ?_ ?_
  · exact ⟨⟨fun _ mem => absurd mem (by simp [initEnv, setupSockEnv]),
      fun _ mem => absurd mem (by simp [initEnv, setupSockEnv])⟩, fun _ => rfl⟩
  · intro events contStr event next held taken
    obtain ⟨covers, ports⟩ := held
    rw [Lineage.after, List.foldl_append]
    exact ⟨taken.covers covers ports, fun q => (taken.ports q).trans (ports q)⟩

/-- A data call on a descriptor without an entry passes its length on. -/
theorem transfer_absent {fd : Int} (absent : contStr.socStr.acpSocketRb.get fd = none) (flag : Bool)
    (count : Nat) (now : Timespec) (libc : Nat → Int × Timespec) :
    transfer contStr flag fd count now libc = .ok (contStr, (libc count).1) := by
  have missing : isAcpSockFdPresent contStr.socStr fd = false := by
    rw [isAcpSockFdPresent_eq, absent]
    rfl
  simp [transfer, enter, preOp, missing, libcLength]

/-- Limits have a cause: in every run, with duplicated and reused numbers too, a data call is charged
to a port only on a descriptor that comes, through `accept`, `connect`, `dup` and `dup2`, from a socket
number that was bound or connected to this port; on a descriptor without such an origin, data calls
are transparent. -/
theorem sectionRun_lineage (run : Run SectionStep (initEnv env) events contStr) (fd : Int) :
    (∀ port, getDestPort contStr.socStr fd = .ok (some port) →
      (Lineage.after env events).Descends fd port) ∧
    (fd ∉ (Lineage.after env events).roots.map Prod.fst → ∀ flag count now libc,
      transfer contStr flag fd count now libc = .ok (contStr, (libc count).1)) := by
  obtain ⟨covers, -⟩ := sectionRun_covers run
  constructor
  · intro port dest
    cases conn : contStr.socStr.acpSocketRb.get fd with
    | none => simp [getDestPort_absent conn] at dest
    | some acp =>
        cases rooted : contStr.socStr.sockRb.get acp.rootFdNumber with
        | none => simp [getDestPort_unrooted conn rooted] at dest
        | some root =>
            rw [getDestPort_present conn rooted] at dest
            obtain rfl := Option.some.inj (Except.ok.inj dest)
            exact ⟨acp.rootFdNumber, covers.roots _ (RbTree.mem_of_get conn),
              covers.ports _ (RbTree.mem_of_get rooted)⟩
  · intro origin
    apply transfer_absent
    cases conn : contStr.socStr.acpSocketRb.get fd with
    | none => rfl
    | some acp =>
        have mem := covers.roots _ (RbTree.mem_of_get conn)
        exact absurd (List.mem_map_of_mem mem) origin

/-- A server on port 80, with a connection 4 that is duplicated, and a socket 6 of another port. -/
def serverCalls : List Section :=
  [.bind 3 ⟨afInet, 0, 80⟩, .accept 3 4, .dup 4 5, .connect 6 ⟨afInet, 0, 81⟩]

theorem serverCalls_lineage : ∃ contStr : ControllerStruct,
    (∀ port, getDestPort contStr.socStr 5 = .ok (some port) → port = 80) ∧
    ∀ flag count now libc, transfer contStr flag 6 count now libc = .ok (contStr, (libc count).1) := by
  have run : Run SectionStep (initEnv (doRegister 80 5 5 0)) serverCalls _ :=
    .cons (.bind ..) (.cons (.accept ..) (.cons (.dup ..) (.cons (.connect ..) .start)))
  have lineage : Lineage.after (doRegister 80 5 5 0) serverCalls =
      ⟨[(3, 80)], [(5, 3), (4, 3)]⟩ := by decide
  refine ⟨_, fun port dest => ?_, (sectionRun_lineage run 6).2 (by rw [lineage]; decide)⟩
  obtain ⟨root, rooted, named⟩ := (sectionRun_lineage run 5).1 port dest
  rw [lineage] at rooted named
  simp only [List.mem_cons, Prod.mk.injEq, List.not_mem_nil, or_false] at rooted named
  exact named.2

end Descent

end BandwidthLimiter
