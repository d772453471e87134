import BandwidthLimiter.Limiter.Section
import BandwidthLimiter.Socket.Registry

namespace BandwidthLimiter
open Foundation

/-- The effect of `bind` on the registry. -/
def boundRegistry (env : RegisterEnvStruct) (fd : Int) (port : UInt32)
    (registry : Registry Int UInt32) : Registry Int UInt32 :=
  if isPortRegistered env port then registry.declare fd port else registry

/-- The effect of `connect` on the registry. -/
def connectedRegistry (env : RegisterEnvStruct) (fd : Int) (port : UInt32)
    (registry : Registry Int UInt32) : Registry Int UInt32 :=
  if isPortRegistered env port = true ∧ registry.valueOf fd = none then
    (registry.declare fd port).attach fd fd
  else registry

/-- The effect of `accept` on the registry. -/
def acceptedRegistry (fd acpFd : Int) (registry : Registry Int UInt32) : Registry Int UInt32 :=
  if acpFd ≠ -1 then registry.attach fd acpFd else registry

/-- The effect of a locked section on the registry, for sections without a duplicate. -/
noncomputable def Section.apply (env : RegisterEnvStruct) (registry : Registry Int UInt32) :
    Section → Registry Int UInt32
  | .bind fd addr => boundRegistry env fd addr.port registry
  | .connect fd addr => connectedRegistry env fd addr.port registry
  | .accept fd acpFd => acceptedRegistry fd acpFd registry
  | .close fd => registry.detach fd
  | _ => registry

/-- A root keeps its port unless the section closes its last connection. -/
theorem Section.valueOf_apply {event : Section} {env : RegisterEnvStruct}
    {registry : Registry Int UInt32} {fd : Int} {port : UInt32}
    (value : registry.valueOf fd = some port)
    (spared : ∀ child, event = .close child → ¬registry.Last child fd) :
    (event.apply env registry).valueOf fd = some port := by
  cases event with
  | bind org addr =>
      simp only [Section.apply, boundRegistry]
      split
      · exact Registry.valueOf_declare_of_some value
      · exact value
  | connect org addr =>
      simp only [Section.apply, connectedRegistry]
      split
      · rw [Registry.valueOf_attach]
        exact Registry.valueOf_declare_of_some value
      · exact value
  | accept org acpFd =>
      simp only [Section.apply, acceptedRegistry]
      split <;> exact value
  | close child => rwa [Section.apply, Registry.valueOf_detach_of_not_last (spared child rfl)]
  | _ => exact value

/-- Only a `close` takes a root away. -/
theorem Section.valueOf_apply_of_ne_close {event : Section} {env : RegisterEnvStruct}
    {registry : Registry Int UInt32} {fd : Int} {port : UInt32}
    (value : registry.valueOf fd = some port) (kept : ∀ child, event ≠ .close child) :
    (event.apply env registry).valueOf fd = some port :=
  Section.valueOf_apply value fun child same => absurd same (kept child)

/-- Every section except the `close` of a connection keeps its port. -/
theorem Section.dest_apply {event : Section} {env : RegisterEnvStruct}
    {registry : Registry Int UInt32} {fd : Int} {port : UInt32}
    (dest : registry.dest fd = some port) (other : ∀ closed, event = .close closed → closed ≠ fd) :
    (event.apply env registry).dest fd = some port := by
  cases event with
  | bind org addr =>
      simp only [Section.apply, boundRegistry]
      split
      · rwa [Registry.dest_declare]
      · exact dest
  | connect org addr =>
      simp only [Section.apply, connectedRegistry]
      split
      · exact Registry.dest_attach_of_some (by rwa [Registry.dest_declare])
      · exact dest
  | accept org acpFd =>
      simp only [Section.apply, acceptedRegistry]
      split
      · exact Registry.dest_attach_of_some dest
      · exact dest
  | close closed =>
      rw [Section.apply, Registry.dest_detach_of_ne (other closed rfl).symm]
      exact dest
  | _ => exact dest

/-- The socket trees hold exactly the registry, and every root socket has a registered port. -/
structure Denotes (contStr : ControllerStruct) (registry : Registry Int UInt32) : Prop where
  sockets : SockInvariant contStr.socStr
  same : sockets.registry = registry
  served : ∀ fd port, registry.valueOf fd = some port →
    isPortRegistered contStr.regEnvStr port = true

namespace Denotes

variable {contStr next : ControllerStruct} {registry : Registry Int UInt32} {event : Section}
  {fd acpFd : Int} {addr : Sockaddr}

theorem destPort (denotes : Denotes contStr registry) (fd : Int) :
    getDestPort contStr.socStr fd = .ok (registry.dest fd) := by
  obtain ⟨sockets, rfl, -⟩ := denotes
  exact sockets.getDestPort_eq fd

theorem present_iff (denotes : Denotes contStr registry) :
    isAcpSockFdPresent contStr.socStr fd = true ↔ registry.rootOf fd ≠ none := by
  obtain ⟨sockets, rfl, -⟩ := denotes
  exact sockets.present_iff

theorem rootOf_eq (denotes : Denotes contStr registry) (fd : Int) :
    (contStr.socStr.acpSocketRb.get fd).map AcpSocketFdStruct.rootFdNumber = registry.rootOf fd := by
  obtain ⟨sockets, rfl, -⟩ := denotes
  rfl

theorem root_iff (denotes : Denotes contStr registry) {port : UInt32} :
    (∃ root, contStr.socStr.sockRb.get fd = some root ∧ root.port = port) ↔
      registry.valueOf fd = some port := by
  obtain ⟨sockets, rfl, -⟩ := denotes
  rw [sockets.valueOf_eq, Option.map_eq_some_iff]

theorem root_none_iff (denotes : Denotes contStr registry) :
    contStr.socStr.sockRb.get fd = none ↔ registry.valueOf fd = none := by
  obtain ⟨sockets, rfl, -⟩ := denotes
  rw [sockets.valueOf_eq, Option.map_eq_none_iff]

/-- A connection is the last one of its root exactly when the counter of the root is at most one. -/
theorem last_iff (denotes : Denotes contStr registry) {root : Int} : registry.Last fd root ↔
    ∃ acp socStr, contStr.socStr.acpSocketRb.get fd = some acp ∧ acp.rootFdNumber = root ∧
      contStr.socStr.sockRb.get root = some socStr ∧ socStr.refCount ≤ 1 := by
  obtain ⟨sockets, rfl, -⟩ := denotes
  constructor
  · intro last
    obtain ⟨acp, conn, rfl⟩ := Option.map_eq_some_iff.mp last.1
    obtain ⟨socStr, rooted⟩ := sockets.root_of conn
    have count := (sockets.last_iff conn rooted).mp last
    exact ⟨acp, socStr, conn, rfl, rooted, by omega⟩
  · rintro ⟨acp, socStr, conn, rfl, rooted, count⟩
    exact (sockets.last_iff conn rooted).mpr (by omega)

/-- A section that keeps the socket trees and the registered ports keeps the registry. -/
theorem frame (denotes : Denotes contStr registry) (sockets : next.socStr = contStr.socStr)
    (ports : ∀ q, isPortRegistered next.regEnvStr q = isPortRegistered contStr.regEnvStr q) :
    Denotes next registry := by
  obtain ⟨invariant, rfl, served⟩ := denotes
  rcases next with ⟨socStr, env⟩
  obtain rfl := sockets
  exact ⟨invariant, rfl, fun fd port value => (ports port).trans (served fd port value)⟩

/-- A registered port becomes the port of a new root socket. -/
theorem declare (denotes : Denotes contStr registry) {port : UInt32}
    (registered : isPortRegistered contStr.regEnvStr port = true) (fd : Int) :
    Denotes { contStr with socStr := (initSock contStr.socStr fd port).1 }
      (registry.declare fd port) := by
  obtain ⟨sockets, rfl, served⟩ := denotes
  refine ⟨sockets.initSock fd port, sockets.registry_initSock fd port, fun q value found => ?_⟩
  rw [Registry.valueOf_declare] at found
  split at found
  · obtain rfl := Option.some.inj found
    cases old : sockets.registry.valueOf fd with
    | none => exact registered
    | some value => exact served fd value old
  · exact served q value found

theorem attach (denotes : Denotes contStr registry) (org new : Int) :
    Denotes { contStr with socStr := (registerSock contStr.socStr org new).1 }
      (registry.attach org new) := by
  obtain ⟨sockets, rfl, served⟩ := denotes
  exact ⟨sockets.registerSock org new, sockets.registry_registerSock org new, served⟩

/-- The result of `init_sock` tells whether the number was free. -/
theorem initSock_snd (denotes : Denotes contStr registry) (fd : Int) (port : UInt32) :
    (initSock contStr.socStr fd port).2 = true ↔ registry.valueOf fd = none := by
  rw [← denotes.root_none_iff]
  cases absent : contStr.socStr.sockRb.get fd with
  | none => simp [initSock_new absent]
  | some root => simp [initSock_old absent]

theorem bind (denotes : Denotes contStr registry) (fd : Int) (addr : Sockaddr) :
    Denotes (bind contStr fd addr) (boundRegistry contStr.regEnvStr fd addr.port registry) := by
  unfold BandwidthLimiter.bind regisNewCreatedSocket boundRegistry
  split
  · rename_i registered
    exact denotes.declare registered fd
  · exact denotes

theorem connect (denotes : Denotes contStr registry) (fd : Int) (addr : Sockaddr) :
    Denotes (connect contStr fd addr)
      (connectedRegistry contStr.regEnvStr fd addr.port registry) := by
  unfold BandwidthLimiter.connect regisNewCreatedSocket connectedRegistry
  by_cases registered : isPortRegistered contStr.regEnvStr addr.port = true
  · simp only [registered, if_true, true_and]
    by_cases absent : registry.valueOf fd = none
    · rw [if_pos ((denotes.initSock_snd fd addr.port).mpr absent), if_pos absent]
      exact (denotes.declare registered fd).attach fd fd
    · rw [if_neg (absent ∘ (denotes.initSock_snd fd addr.port).mp), if_neg absent]
      obtain ⟨root, present⟩ := Option.ne_none_iff_exists'.mp (absent ∘ denotes.root_none_iff.mp)
      rwa [initSock_old present]
  · simp only [registered, false_and, if_false, Bool.false_eq_true]
    exact denotes

theorem accept (denotes : Denotes contStr registry) (fd acpFd : Int) :
    Denotes (accept contStr fd acpFd) (acceptedRegistry fd acpFd registry) := by
  unfold BandwidthLimiter.accept acceptedRegistry
  split
  · exact denotes.attach fd acpFd
  · exact denotes

/-- The close of any descriptor succeeds and is a detachment. -/
theorem close (denotes : Denotes contStr registry) (fd : Int) :
    ∃ next, close contStr fd = .ok next ∧ Denotes next (registry.detach fd) := by
  obtain ⟨sockets, rfl, served⟩ := denotes
  cases done : unregisterSocketDescriptor contStr.socStr fd with
  | error stop => exact absurd done (sockets.unregister_ne_error fd stop)
  | ok result =>
      refine ⟨{ contStr with socStr := result.1 }, by simp [BandwidthLimiter.close, done, Except.map],
        sockets.unregister done, sockets.registry_unregister done, fun q value found => ?_⟩
      rw [Registry.valueOf_detach] at found
      split at found
      · cases found
      · exact served q value found

theorem closed (denotes : Denotes contStr registry)
    (done : BandwidthLimiter.close contStr fd = .ok next) : Denotes next (registry.detach fd) := by
  obtain ⟨later, run, kept⟩ := denotes.close fd
  obtain rfl := Except.ok.inj (run.symm.trans done)
  exact kept

/-- Each locked section without a duplicate acts on the registry. -/
theorem step (denotes : Denotes contStr registry) (taken : SectionStep contStr event next)
    (single : event.duplicates = false) :
    Denotes next (event.apply contStr.regEnvStr registry) := by
  cases taken with
  | bind fd addr => exact denotes.bind fd addr
  | connect fd addr => exact denotes.connect fd addr
  | accept fd acpFd => exact denotes.accept fd acpFd
  | close done => exact denotes.closed done
  | dup oldFd newFd => cases single
  | dup2 oldFd newFd returnVal => cases single
  | enter done => exact denotes.frame (preOp_budget done).sockets (preOp_budget done).ports
  | leave done => exact denotes.frame (leave_budget done).sockets (leave_budget done).ports

end Denotes

/-- The empty trees hold the empty registry for every port table. -/
theorem denotes_initEnv (env : RegisterEnvStruct) :
    Denotes (initEnv env) SockInvariant.setup.registry :=
  ⟨.setup, rfl, by simp [SockInvariant.valueOf_eq, setupSockEnv]⟩

/-- A controller that is reached without a duplicate holds a registry. -/
theorem ReachableWithoutDup.denotes {contStr : ControllerStruct}
    (reachable : ReachableWithoutDup contStr) : ∃ registry, Denotes contStr registry := by
  obtain ⟨env, events, -, single, run⟩ := reachable
  refine run.history (fun events contStr => (∀ event ∈ events, event.duplicates = false) →
    ∃ registry, Denotes contStr registry) (fun _ => ⟨_, denotes_initEnv env⟩) ?_ single
  intro events contStr event next before taken single
  obtain ⟨registry, denotes⟩ := before fun event mem => single event (by simp [mem])
  exact ⟨_, denotes.step taken (single event (by simp))⟩

theorem ReachableWithoutDup.reachable {contStr : ControllerStruct}
    (reachable : ReachableWithoutDup contStr) : Reachable contStr := by
  obtain ⟨env, events, registered, -, run⟩ := reachable
  exact ⟨env, events, registered, run⟩

/-- The server socket 3 on port 80 with one limit for both directions. -/
def serverSocket : ControllerStruct := bind (initEnv (doRegister 80 5 5 0)) 3 ⟨afInet, 0, 80⟩

theorem serverSocket_reachable : ReachableWithoutDup serverSocket :=
  ⟨_, [.bind 3 ⟨afInet, 0, 80⟩], .environment 80 5 5 0, by simp [Section.duplicates],
    .cons (.bind 3 ⟨afInet, 0, 80⟩) .start⟩

end BandwidthLimiter
