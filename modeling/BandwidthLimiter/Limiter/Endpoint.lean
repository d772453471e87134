import BandwidthLimiter.Limiter.Listener
import BandwidthLimiter.Limiter.Request

namespace BandwidthLimiter
open Foundation

/-- The descriptor is registered as a connection of the port, and all its data calls are limited. -/
structure ControllerStruct.Limited (contStr : ControllerStruct) (fd : Int) (port : UInt32) :
    Prop where
  present : isAcpSockFdPresent contStr.socStr fd = true
  dest : getDestPort contStr.socStr fd = .ok (some port)
  active : ∀ flag count now, ∃ next grant,
    enter contStr flag fd count now = .ok (next, grant) ∧ grant.active = true

/-- The event ties the descriptor to the address. -/
def Section.Ties (fd : Int) (addr : Sockaddr) (event : Section) : Prop :=
  event = .bind fd addr ∨ event = .connect fd addr

/-- The descriptor stays open, and no descriptor is duplicated. -/
def OpenStep (fd : Int) (contStr : ControllerStruct) (event : Section) (next : ControllerStruct) :
    Prop := SectionStep contStr event next ∧ event.duplicates = false ∧ event ≠ .close fd

variable {contStr next : ControllerStruct} {registry : Registry Int UInt32} {event : Section}
  {fd : Int} {addr : Sockaddr} {port : UInt32}

/-- A descriptor is limited exactly when the registry gives it the port. -/
theorem Denotes.limited_iff (denotes : Denotes contStr registry) :
    contStr.Limited fd port ↔ registry.dest fd = some port := by
  constructor
  · intro limited
    exact denotes.dest_iff.mp limited.dest
  · intro known
    have dest := denotes.dest_iff.mpr known
    refine ⟨present_of_port dest, dest, fun flag count now => ?_⟩
    obtain ⟨root, -, value⟩ := Registry.dest_eq_some.mp known
    obtain ⟨data, found⟩ := Option.isSome_iff_exists.mp (denotes.served root port value)
    obtain ⟨next, done, -⟩ := preOp_spec dest found (ssizeT count) flag now
    exact ⟨next, _, done, rfl⟩

/-- A descriptor that is not registered has no port in the registry. -/
theorem Denotes.dest_absent (denotes : Denotes contStr registry)
    (absent : isAcpSockFdPresent contStr.socStr fd = false) : registry.dest fd = none := by
  rw [Registry.dest_eq_none]
  by_contra named
  simp [denotes.present_iff.mpr named] at absent

/-- An open limited descriptor keeps its port. -/
theorem openRun_limited {more : List Section} {last : ControllerStruct}
    (denotes : Denotes contStr registry) (known : registry.dest fd = some port)
    (run : Run (OpenStep fd) contStr more last) : last.Limited fd port := by
  have kept : ∃ registry, Denotes last registry ∧ registry.dest fd = some port := by
    refine run.invariant (fun contStr => ∃ registry, Denotes contStr registry ∧
      registry.dest fd = some port) ⟨registry, denotes, known⟩ ?_
    rintro state event next ⟨registry, denotes, known⟩ ⟨taken, single, kept⟩
    refine ⟨_, denotes.step taken single, Section.dest_apply known fun closed same => ?_⟩
    rintro rfl
    exact kept same
  obtain ⟨_, later, known⟩ := kept
  exact later.limited_iff.mpr known

/-- A `bind` leaves an unregistered descriptor without a limit. -/
theorem Denotes.bind_unlimited (denotes : Denotes contStr registry)
    (absent : isAcpSockFdPresent contStr.socStr fd = false) :
    ¬(BandwidthLimiter.bind contStr fd addr).Limited fd port := by
  rw [(denotes.bind fd addr).limited_iff, boundRegistry]
  split <;> simp [denotes.dest_absent absent]

/-- A `connect` to a registered port limits an unregistered descriptor exactly when it is no root
socket. -/
theorem Denotes.connect_limited_iff (denotes : Denotes contStr registry)
    (registered : isPortRegistered contStr.regEnvStr addr.port = true)
    (absent : isAcpSockFdPresent contStr.socStr fd = false) :
    (BandwidthLimiter.connect contStr fd addr).Limited fd addr.port ↔
      contStr.socStr.sockRb.get fd = none := by
  have missing := denotes.dest_absent absent
  have free := Registry.dest_eq_none.mp missing
  rw [(denotes.connect fd addr).limited_iff, denotes.root_none_iff, connectedRegistry]
  split
  · rename_i new
    have known : (registry.declare fd addr.port).valueOf fd = some addr.port :=
      Registry.declare_iff.mpr (.inl new.2)
    exact iff_of_true (Registry.dest_attach_new free known) new.2
  · rename_i known
    exact iff_of_false (by simp [missing]) fun new => known ⟨registered, new⟩

/-- An unregistered socket that is tied to a registered port is limited from then on exactly when a
`connect` ties it and it is no root socket before. -/
theorem tiedSocket_limited_iff (reachable : ReachableWithoutDup contStr)
    (absent : isAcpSockFdPresent contStr.socStr fd = false)
    (registered : isPortRegistered contStr.regEnvStr addr.port = true)
    (ties : event.Ties fd addr) (taken : SectionStep contStr event next) :
    (∀ more last, Run (OpenStep fd) next more last → last.Limited fd addr.port) ↔
      event = .connect fd addr ∧ contStr.socStr.sockRb.get fd = none := by
  obtain ⟨registry, denotes⟩ := reachable.denotes
  rcases ties with rfl | rfl
  · cases taken
    refine iff_of_false (fun limited => ?_) (by simp)
    exact denotes.bind_unlimited absent (limited [] _ .start)
  · cases taken
    rw [← denotes.connect_limited_iff registered absent]
    constructor
    · intro limited
      exact ⟨rfl, limited [] _ .start⟩
    · rintro ⟨-, limited⟩ more last run
      have after := denotes.connect fd addr
      exact openRun_limited after (after.limited_iff.mp limited) run

section Client

/-- The client connection is limited after its `connect`, and it stays limited. -/
theorem clientConnection_limited : (clientConnection 5).Limited 4 80 ∧ ∀ more last,
    Run (OpenStep 4) (clientConnection 5) more last → last.Limited 4 80 := by
  have reachable : ReachableWithoutDup (initEnv (doRegister 80 5 5 0)) :=
    ⟨_, [], .environment 80 5 5 0, by simp, .start⟩
  have taken : SectionStep (initEnv (doRegister 80 5 5 0)) (.connect 4 ⟨afInet, 0, 80⟩)
    (clientConnection 5) := .connect 4 ⟨afInet, 0, 80⟩
  have limited := (tiedSocket_limited_iff reachable (by decide) (by decide) (.inr rfl) taken).mpr
    ⟨rfl, by decide⟩
  exact ⟨limited [] _ .start, limited⟩

set_option maxRecDepth 4000 in
/-- A socket with a local port is not limited by its later `connect`. -/
theorem boundSocket_unlimited :
    ¬∀ (process next : Process) (events : List ProcessEvent) (event : Section) (fd : Int)
      (addr : Sockaddr), process.Reached events → fd ∈ process.opened →
      isAcpSockFdPresent process.contStr.socStr fd = false →
      isPortRegistered process.contStr.regEnvStr addr.port = true → event.Ties fd addr →
      ProcessStep process (.call event) next → next.contStr.Limited fd addr.port := by
  intro assumed
  have reached : (serverProcess.bound 3 ⟨afInet, 0, 80⟩).Reached
      [.socket 3, .call (.bind 3 ⟨afInet, 0, 80⟩)] :=
    ⟨_, {0, 1, 2}, .environment 80 5 5 0,
      .cons (.socket (by decide) (by decide)) (.cons (.binds serverProcess 3 _) .start)⟩
  have limited := assumed _ _ _ (.connect 3 ⟨afInet, 0, 80⟩) 3 ⟨afInet, 0, 80⟩ reached
    (by decide) (by decide) (by decide) (.inr rfl) (.call trivial (.connect 3 _))
  exact absurd limited.present (by decide)

end Client

end BandwidthLimiter
