import BandwidthLimiter.Limiter.Listener
import BandwidthLimiter.Limiter.Request
import Mathlib.Data.Fintype.EquivFin

namespace BandwidthLimiter
open Foundation

/-- The event gives the number to a new socket. -/
def ProcessEvent.HandsOut (fd : Int) : ProcessEvent → Prop
  | .socket new => new = fd
  | .call (.accept _ acpFd) => acpFd = fd ∧ acpFd ≠ -1
  | _ => False

/-- The event binds or connects the descriptor to a registered port. -/
def ProcessEvent.Registers (env : RegisterEnvStruct) (fd : Int) : ProcessEvent → Prop
  | .call (.bind org addr) => org = fd ∧ isPortRegistered env addr.port = true
  | .call (.connect org addr) => org = fd ∧ isPortRegistered env addr.port = true
  | _ => False

/-- The descriptor stays open and is not registered for a port. -/
def UnregisteredStep (fd : Int) (process : Process) (event : ProcessEvent) (next : Process) :
    Prop :=
  ProcessStep process event next ∧ event ≠ .call (.close fd) ∧
    ¬event.Registers process.contStr.regEnvStr fd

/-- A descriptor without influence of an older socket: its next registration takes effect, and its
connections are not registered before that. -/
structure Process.Fresh (process : Process) (fd : Int) : Prop where
  bind : ∀ addr, isPortRegistered process.contStr.regEnvStr addr.port = true →
    (bind process.contStr fd addr).HasPort fd addr.port
  connect : ∀ addr, isPortRegistered process.contStr.regEnvStr addr.port = true →
    (connect process.contStr fd addr).HasPort fd addr.port ∧
      (isAcpSockFdPresent process.contStr.socStr fd = false →
        getDestPort (connect process.contStr fd addr).socStr fd = .ok (some addr.port))
  accept : ∀ acpFd, 0 ≤ acpFd → acpFd ∉ process.opened →
    isAcpSockFdPresent (accept process.contStr fd acpFd).socStr acpFd = true →
      isAcpSockFdPresent process.contStr.socStr acpFd = true

section Effects

variable {process next : Process} {event : ProcessEvent} {registry : Registry Int UInt32} {fd : Int}

/-- A number that is no root socket stays so until it is registered. -/
theorem UnregisteredStep.valueOf (absent : registry.valueOf fd = none)
    (taken : UnregisteredStep fd process event next) :
    (event.apply process.contStr.regEnvStr registry).valueOf fd = none := by
  obtain ⟨taken, -, other⟩ := taken
  cases event with
  | socket new => exact absent
  | call event =>
      cases event with
      | bind org addr =>
          simp only [ProcessEvent.apply, Section.apply, boundRegistry]
          split
          · rename_i registered
            rw [Registry.valueOf_declare_of_ne fun same => other ⟨same.symm, registered⟩]
            exact absent
          · exact absent
      | connect org addr =>
          simp only [ProcessEvent.apply, Section.apply, connectedRegistry]
          split
          · rename_i registered
            rw [Registry.valueOf_attach,
              Registry.valueOf_declare_of_ne fun same => other ⟨same.symm, registered.1⟩]
            exact absent
          · exact absent
      | accept org acpFd =>
          simp only [ProcessEvent.apply, Section.apply, acceptedRegistry]
          split <;> exact absent
      | close child =>
          simp only [ProcessEvent.apply, Section.apply, Registry.valueOf_detach]
          split
          · rfl
          · exact absent
      | _ => exact absent

/-- A `bind` to a registered port takes effect exactly for a new root or for the same port. -/
theorem Denotes.bind_iff (denotes : Denotes process.contStr registry) {addr : Sockaddr}
    (registered : isPortRegistered process.contStr.regEnvStr addr.port = true) :
    (BandwidthLimiter.bind process.contStr fd addr).HasPort fd addr.port ↔
      process.contStr.socStr.sockRb.get fd = none ∨ process.contStr.HasPort fd addr.port := by
  rw [(denotes.bind fd addr).hasPort_iff, boundRegistry, if_pos registered,
    Registry.declare_iff,
    denotes.root_none_iff, denotes.hasPort_iff]

theorem Denotes.connect_iff (denotes : Denotes process.contStr registry) {addr : Sockaddr}
    (registered : isPortRegistered process.contStr.regEnvStr addr.port = true) :
    (BandwidthLimiter.connect process.contStr fd addr).HasPort fd addr.port ↔
      process.contStr.socStr.sockRb.get fd = none ∨ process.contStr.HasPort fd addr.port := by
  rw [(denotes.connect fd addr).hasPort_iff, denotes.root_none_iff, denotes.hasPort_iff,
    connectedRegistry]
  split
  · rw [Registry.valueOf_attach]
    exact Registry.declare_iff
  · rename_i known
    rw [or_iff_right fun absent => known ⟨registered, absent⟩]

/-- A number that is no root socket is fresh. -/
theorem Denotes.fresh (denotes : Denotes process.contStr registry)
    (absent : registry.valueOf fd = none) : process.Fresh fd where
  bind addr registered := (denotes.bind_iff registered).mpr (.inl (denotes.root_none_iff.mpr absent))
  connect addr registered := by
    have known : (registry.declare fd addr.port).valueOf fd = some addr.port :=
      Registry.declare_iff.mpr (.inl absent)
    have after := denotes.connect fd addr
    rw [connectedRegistry, if_pos ⟨registered, absent⟩] at after
    refine ⟨after.hasPort_iff.mpr known, fun missing => after.dest_iff.mpr ?_⟩
    rw [Bool.eq_false_iff, Ne, denotes.present_iff, not_not] at missing
    exact Registry.dest_attach_new missing known
  accept acpFd proper free present := by
    have after := denotes.accept fd acpFd
    rw [acceptedRegistry, if_pos (show acpFd ≠ -1 by omega), Registry.attach_unknown absent] at after
    exact denotes.present_iff.mpr (after.present_iff.mp present)

/-- A fresh number is no root socket, since a root socket registers a connection. -/
theorem Denotes.absent_of_fresh (denotes : Denotes process.contStr registry)
    (fresh : process.Fresh fd) : registry.valueOf fd = none := by
  by_contra known
  obtain ⟨number, unused⟩ := Infinite.exists_notMem_finset
    ((process.opened ∪ (process.contStr.socStr.acpSocketRb.entries.map Prod.fst).toFinset).image
      Int.toNat)
  have outside : (number : Int) ∉ process.opened ∪
      (process.contStr.socStr.acpSocketRb.entries.map Prod.fst).toFinset := fun inside =>
    unused (Finset.mem_image.mpr ⟨number, inside, Int.toNat_natCast number⟩)
  rw [Finset.mem_union, not_or, List.mem_toFinset] at outside
  have missing : isAcpSockFdPresent process.contStr.socStr number = false := by
    rw [isAcpSockFdPresent_eq, RbTree.get_eq_none_iff_absent.mpr outside.2]
    rfl
  have absent : registry.rootOf number = none := by
    rwa [Bool.eq_false_iff, Ne, denotes.present_iff, not_not] at missing
  have after := denotes.accept fd number
  rw [acceptedRegistry, if_pos (show (number : Int) ≠ -1 by omega)] at after
  have present := after.present_iff.mpr (by
    rw [Registry.rootOf_attach_new absent known]
    simp)
  rw [fresh.accept number (by omega) outside.1 present] at missing
  cases missing

/-- A connection keeps its port through every event except its own `close`. -/
theorem ProcessEvent.dest_apply {env : RegisterEnvStruct} {conn : Int} {port : UInt32}
    (dest : registry.dest conn = some port) (other : event ≠ .call (.close conn)) :
    (event.apply env registry).dest conn = some port := by
  cases event with
  | socket new => exact dest
  | call event =>
      apply Section.dest_apply dest
      intro closed same
      rintro rfl
      exact other (congrArg _ same)

/-- A number stays no root socket through a run that does not register it. -/
theorem unregisteredRun_absent {more : List ProcessEvent}
    (run : Run (UnregisteredStep fd) process more next)
    (initial : ∃ registry, Denotes process.contStr registry ∧ registry.valueOf fd = none) :
    ∃ registry, Denotes next.contStr registry ∧ registry.valueOf fd = none :=
  run.invariant (fun process => ∃ registry, Denotes process.contStr registry ∧
    registry.valueOf fd = none) initial
    fun _ _ _ ⟨_, denotes, absent⟩ taken => ⟨_, taken.1.denotes denotes, taken.valueOf absent⟩

/-- A connection keeps its port until its own `close`. -/
theorem connectionRun_dest {conn : Int} {port : UInt32} {more : List ProcessEvent}
    (run : Run (fun process event next => ProcessStep process event next ∧
      event ≠ .call (.close conn)) process more next)
    (initial : ∃ registry, Denotes process.contStr registry ∧ registry.dest conn = some port) :
    ∃ registry, Denotes next.contStr registry ∧ registry.dest conn = some port :=
  run.invariant (fun process => ∃ registry, Denotes process.contStr registry ∧
    registry.dest conn = some port) initial
    fun _ _ _ ⟨_, denotes, dest⟩ ⟨taken, other⟩ =>
      ⟨_, taken.denotes denotes, ProcessEvent.dest_apply dest other⟩

end Effects

/-- Giving out a number leaves the ports of the root sockets. -/
theorem ProcessEvent.HandsOut.valueOf {env : RegisterEnvStruct} {event : ProcessEvent}
    {registry : Registry Int UInt32} {fd : Int} (handsOut : event.HandsOut fd) :
    (event.apply env registry).valueOf = registry.valueOf := by
  cases event with
  | socket new => rfl
  | call event =>
      cases event with
      | accept org acpFd =>
          simp only [ProcessEvent.apply, Section.apply, acceptedRegistry]
          split <;> rfl
      | _ => cases handsOut

/-- A number that is given to a new socket is free of older sockets exactly when it is no root
socket at that moment. Each `bind` or `connect` of an open socket to a registered port takes effect
exactly for a new root or for the same port. The connections of older sockets keep their ports until
they are closed. -/
theorem handOut_fresh_iff {process next : Process} {events : List ProcessEvent}
    {event : ProcessEvent} {fd : Int} (reached : process.Reached events)
    (taken : ProcessStep process event next) (handsOut : event.HandsOut fd) :
    ((∀ more last, Run (UnregisteredStep fd) next more last → last.Fresh fd) ↔
      process.contStr.socStr.sockRb.get fd = none) ∧
    (∀ more last addr, Run ProcessStep next more last →
      isPortRegistered last.contStr.regEnvStr addr.port = true →
      ((bind last.contStr fd addr).HasPort fd addr.port ↔
        last.contStr.socStr.sockRb.get fd = none ∨ last.contStr.HasPort fd addr.port) ∧
      ((connect last.contStr fd addr).HasPort fd addr.port ↔
        last.contStr.socStr.sockRb.get fd = none ∨ last.contStr.HasPort fd addr.port)) ∧
    ∀ conn port more last, getDestPort process.contStr.socStr conn = .ok (some port) →
      Run (fun process event next => ProcessStep process event next ∧
        event ≠ .call (.close conn)) process more last →
      getDestPort last.contStr.socStr conn = .ok (some port) := by
  obtain ⟨registry, denotes⟩ := reached.denotes
  have after := taken.denotes denotes
  have absent_iff : process.contStr.socStr.sockRb.get fd = none ↔
      (event.apply process.contStr.regEnvStr registry).valueOf fd = none := by
    rw [denotes.root_none_iff, handsOut.valueOf]
  refine ⟨⟨fun fresh => ?_, fun absent more last run => ?_⟩, fun more last addr run registered => ?_,
    fun conn port more last dest run => ?_⟩
  · exact absent_iff.mpr (after.absent_of_fresh (fresh [] next .start))
  · obtain ⟨_, later, free⟩ := unregisteredRun_absent run ⟨_, after, absent_iff.mp absent⟩
    exact later.fresh free
  · obtain ⟨_, later⟩ := run.invariant (fun process => ∃ registry, Denotes process.contStr registry)
      ⟨_, after⟩ fun _ _ _ ⟨_, denotes⟩ taken => ⟨_, taken.denotes denotes⟩
    exact ⟨later.bind_iff registered, later.connect_iff registered⟩
  · obtain ⟨_, later, kept⟩ := connectionRun_dest run ⟨registry, denotes, denotes.dest_iff.mp dest⟩
    exact later.dest_iff.mpr kept

section Server

/-- The number of a closed client socket is given to the next socket, which is free of the old port. -/
theorem reusedClient_fresh : ∃ process next : Process,
    process.Reached [.socket 4, .call (.connect 4 ⟨afInet, 0, 80⟩), .call (.close 4)] ∧
      ProcessStep process (.socket 4) next ∧
      ∀ more last, Run (UnregisteredStep 4) next more last → last.Fresh 4 := by
  let opened : Finset Int := insert 4 {0, 1, 2}
  obtain ⟨freed, done, absent, -⟩ := clientConnection_close
  have created : ProcessStep ⟨initEnv (doRegister 80 5 5 0), {0, 1, 2}⟩ (.socket 4) ⟨_, opened⟩ :=
    .socket (by decide) (by decide)
  have connected : ProcessStep ⟨initEnv (doRegister 80 5 5 0), opened⟩
      (.call (.connect 4 ⟨afInet, 0, 80⟩)) ⟨clientConnection 5, opened⟩ :=
    .call trivial (.connect 4 ⟨afInet, 0, 80⟩)
  have reached : Process.Reached ⟨freed, opened.erase 4⟩
      [.socket 4, .call (.connect 4 ⟨afInet, 0, 80⟩), .call (.close 4)] :=
    ⟨_, _, .environment 80 5 5 0, .cons created (.cons connected (.cons (.closes done) .start))⟩
  have reused : ProcessStep ⟨freed, opened.erase 4⟩ (.socket 4) ⟨freed, insert 4 (opened.erase 4)⟩ :=
    .socket (by decide) (Finset.notMem_erase 4 opened)
  exact ⟨_, _, reached, reused, (handOut_fresh_iff reached reused rfl).1.mpr absent⟩

/-- The controller for the ports 80 and 443 after a `bind` of the socket 3 to port 80. -/
def reusedSocket : ControllerStruct :=
  bind (initEnv (doRegisterFromConfig [⟨80, 5, 5, 0⟩, ⟨443, 5, 5, 0⟩])) 3 ⟨afInet, 0, 80⟩

set_option maxRecDepth 4000 in
/-- A closed server socket keeps its port for the next socket with its number. -/
theorem reusedSocket_stale :
    ¬∀ (process next : Process) (events : List ProcessEvent) (event : ProcessEvent) (fd : Int),
      process.Reached events → .call (.close fd) ∈ events → ProcessStep process event next →
      event.HandsOut fd →
      ∀ more last, Run (UnregisteredStep fd) next more last → last.Fresh fd := by
  intro assumed
  let opened : Finset Int := insert 3 {0, 1, 2}
  have closed : close reusedSocket 3 = .ok reusedSocket := close_absent (by decide)
  have created : ProcessStep
      ⟨initEnv (doRegisterFromConfig [⟨80, 5, 5, 0⟩, ⟨443, 5, 5, 0⟩]), {0, 1, 2}⟩ (.socket 3) ⟨_, opened⟩ := .socket (by decide) (by decide)
  have reached : Process.Reached ⟨reusedSocket, opened.erase 3⟩
      [.socket 3, .call (.bind 3 ⟨afInet, 0, 80⟩), .call (.close 3)] :=
    ⟨_, _, .config _, .cons created (.cons (.binds _ 3 ⟨afInet, 0, 80⟩)
      (.cons (.closes closed) .start))⟩
  have reused : ProcessStep ⟨reusedSocket, opened.erase 3⟩ (.socket 3)
      ⟨reusedSocket, insert 3 (opened.erase 3)⟩ := .socket (by decide) (by decide)
  obtain ⟨root, found, port⟩ := (assumed _ _ _ _ 3 reached (by simp) reused rfl [] _ .start).bind
    ⟨afInet, 1, 187⟩ (by decide)
  have stale : (bind reusedSocket 3 ⟨afInet, 1, 187⟩).socStr.sockRb.get 3 = some ⟨80, 0⟩ := by decide
  obtain rfl := Option.some.inj (found.symm.trans stale)
  exact absurd port (by decide)

end Server

end BandwidthLimiter
