import BandwidthLimiter.Limiter.Process

namespace BandwidthLimiter
open Foundation

/-- The descriptor is a root socket with the port. -/
def ControllerStruct.HasPort (contStr : ControllerStruct) (fd : Int) (port : UInt32) : Prop :=
  ∃ root, contStr.socStr.sockRb.get fd = some root ∧ root.port = port

namespace Process

/-- The listener keeps its port, and the event leaves each connection that it accepts there with
the port. -/
structure Limits (listener : Int) (port : UInt32) (event : ProcessEvent) (next : Process) :
    Prop where
  kept : next.contStr.HasPort listener port
  accepted : ∀ acpFd, event = .call (.accept listener acpFd) → acpFd ≠ -1 →
    isAcpSockFdPresent next.contStr.socStr acpFd = true ∧
      getDestPort next.contStr.socStr acpFd = .ok (some port)

/-- The event closes no last connection of the listener, and a number that the listener accepts is
not registered or is registered with the port. -/
def Spares (process : Process) (listener : Int) (port : UInt32) : ProcessEvent → Prop
  | .call (.close fd) => ∀ acp root, process.contStr.socStr.acpSocketRb.get fd = some acp →
      acp.rootFdNumber = listener → process.contStr.socStr.sockRb.get listener = some root →
      1 < root.refCount
  | .call (.accept org acpFd) => org = listener → acpFd ≠ -1 →
      isAcpSockFdPresent process.contStr.socStr acpFd = false ∨
        getDestPort process.contStr.socStr acpFd = .ok (some port)
  | _ => True

end Process

variable {process next : Process} {event : ProcessEvent} {registry : Registry Int UInt32}
  {listener : Int} {port : UInt32}

/-- An event that accepts nothing on the listener only has to keep its port. -/
theorem Process.limits_iff_hasPort
    (other : ∀ acpFd, event ≠ .call (.accept listener acpFd)) :
    next.Limits listener port event ↔ next.contStr.HasPort listener port :=
  ⟨fun limits => limits.kept, fun kept => ⟨kept, fun acpFd same => absurd same (other acpFd)⟩⟩

theorem Denotes.hasPort_iff {contStr : ControllerStruct} (denotes : Denotes contStr registry) :
    contStr.HasPort listener port ↔ registry.valueOf listener = some port := denotes.root_iff

theorem Denotes.dest_iff {contStr : ControllerStruct} (denotes : Denotes contStr registry)
    {fd : Int} :
    getDestPort contStr.socStr fd = .ok (some port) ↔ registry.dest fd = some port := by
  rw [denotes.destPort fd, Except.ok.injEq]

/-- An accepted connection has the port of its listener exactly when its number was not registered
or was registered with the port. -/
theorem Denotes.accepted_iff {contStr : ControllerStruct} (denotes : Denotes contStr registry)
    (value : registry.valueOf listener = some port) (acpFd : Int) :
    (registry.attach listener acpFd).dest acpFd = some port ↔
      isAcpSockFdPresent contStr.socStr acpFd = false ∨
        getDestPort contStr.socStr acpFd = .ok (some port) := by
  rw [denotes.dest_iff, Bool.eq_false_iff, Ne, denotes.present_iff, not_not]
  constructor
  · intro dest
    cases old : registry.dest acpFd with
    | none => exact .inl (Registry.dest_eq_none.mp old)
    | some before => exact .inr ((Registry.dest_attach_of_some old).symm.trans dest)
  · rintro (absent | dest)
    · exact Registry.dest_attach_new absent value
    · exact Registry.dest_attach_of_some dest

/-- One event keeps the listener limited exactly when it spares the listener. -/
theorem ProcessStep.limits_iff (denotes : Denotes process.contStr registry)
    (value : registry.valueOf listener = some port) (taken : ProcessStep process event next) :
    next.Limits listener port event ↔ process.Spares listener port event := by
  have after := taken.denotes denotes
  cases event with
  | socket fd =>
      rw [Process.limits_iff_hasPort (by simp), after.hasPort_iff]
      exact iff_of_true value trivial
  | call event =>
      rw [ProcessEvent.apply] at after
      cases event with
      | close fd =>
          rw [Process.limits_iff_hasPort (by simp), after.hasPort_iff]
          constructor
          · intro kept acp root conn named rooted
            by_contra single
            have last := denotes.last_iff.mpr ⟨acp, root, conn, named, rooted, by omega⟩
            simp [Section.apply, Registry.valueOf_detach_last last] at kept
          · intro spares
            apply Section.valueOf_apply value
            intro child same last
            obtain rfl := Section.close.inj same
            obtain ⟨acp, root, conn, named, rooted, count⟩ := denotes.last_iff.mp last
            have several := spares acp root conn named rooted
            omega
      | accept org acpFd =>
          have kept := after.hasPort_iff.mpr (Section.valueOf_apply_of_ne_close value (by simp))
          constructor
          · rintro limits rfl proper
            have dest := after.dest_iff.mp (limits.accepted acpFd rfl proper).2
            rw [Section.apply, acceptedRegistry, if_pos proper] at dest
            exact (denotes.accepted_iff value acpFd).mp dest
          · intro spares
            refine ⟨kept, fun fd same proper => ?_⟩
            obtain ⟨rfl, rfl⟩ := Section.accept.inj (ProcessEvent.call.inj same)
            have dest := (denotes.accepted_iff value acpFd).mpr (spares rfl proper)
            have found : getDestPort next.contStr.socStr acpFd = .ok (some port) := by
              rw [after.dest_iff, Section.apply, acceptedRegistry, if_pos proper]
              exact dest
            exact ⟨present_of_port found, found⟩
      | _ =>
          rw [Process.limits_iff_hasPort (by simp), after.hasPort_iff]
          exact iff_of_true (Section.valueOf_apply_of_ne_close value (by simp)) trivial

/-- The process after the `bind` of a socket. -/
def Process.bound (process : Process) (fd : Int) (addr : Sockaddr) : Process :=
  { process with contStr := bind process.contStr fd addr }

/-- While a bound listener is open, it stays limited exactly in the runs that spare it. -/
theorem listenerRun_limited_iff {events more : List ProcessEvent} {last : Process} {addr : Sockaddr}
    (reached : process.Reached events)
    (registered : isPortRegistered process.contStr.regEnvStr addr.port = true)
    (new : process.contStr.socStr.sockRb.get listener = none) :
    Run (fun process event next => (ProcessStep process event next ∧
        event ≠ .call (.close listener)) ∧ next.Limits listener addr.port event)
        (process.bound listener addr) more last ↔
      Run (fun process event next => (ProcessStep process event next ∧
        event ≠ .call (.close listener)) ∧ process.Spares listener addr.port event)
        (process.bound listener addr) more last := by
  obtain ⟨registry, denotes⟩ := reached.denotes
  have value : (boundRegistry process.contStr.regEnvStr listener addr.port registry).valueOf
      listener = some addr.port := by
    rw [boundRegistry, if_pos registered, Registry.valueOf_declare_self,
      denotes.root_none_iff.mp new]
    rfl
  refine Run.guard_iff (fun process => ∃ registry, Denotes process.contStr registry ∧
    registry.valueOf listener = some addr.port) ⟨_, denotes.bind listener addr, value⟩ ?_ ?_
  · rintro process event next ⟨registry, denotes, value⟩ ⟨taken, -⟩
    exact taken.limits_iff denotes value
  · rintro process event next ⟨registry, denotes, value⟩ ⟨taken, -⟩ spares
    have limits := (taken.limits_iff denotes value).mpr spares
    exact ⟨_, taken.denotes denotes, (taken.denotes denotes).hasPort_iff.mp limits.kept⟩

section Server

/-- The server process while it accepts its first connection 4. -/
def firstAccept : Process := ⟨accept serverSocket 3 4, insert 4 (insert 3 {0, 1, 2})⟩

theorem firstAccept_step : ProcessStep (serverProcess.bound 3 ⟨afInet, 0, 80⟩)
    (.call (.accept 3 4)) firstAccept := .accepts (by decide) (by decide) (by decide)

theorem firstAccept_limited : ∃ last,
    Run (fun process event next => (ProcessStep process event next ∧
        event ≠ .call (.close 3)) ∧ next.Limits 3 80 event)
      (serverProcess.bound 3 ⟨afInet, 0, 80⟩)
      [.call (.accept 3 4), .call (.accept 3 5), .call (.close 4)] last := by
  obtain ⟨registry, denotes⟩ := serverSocket_reachable.denotes
  obtain ⟨last, done, -⟩ := ((denotes.accept 3 4).accept 3 5).close 4
  have rooted : (accept (accept serverSocket 3 4) 3 5).socStr.sockRb.get 3 = some ⟨80, 2⟩ := by
    decide
  have second := ProcessStep.accepts (show 3 ∈ firstAccept.opened by decide)
    (show (0 : Int) ≤ 5 by decide) (by decide)
  have third : ProcessStep ⟨accept (accept serverSocket 3 4) 3 5, insert 5 firstAccept.opened⟩
      (.call (.close 4)) _ := .closes done
  refine ⟨_, (listenerRun_limited_iff serverProcess_reached (by decide) (by decide)).mpr
    (.cons ⟨⟨firstAccept_step, nofun⟩, fun _ _ => .inl (by decide)⟩
      (.cons ⟨⟨second, nofun⟩, fun _ _ => .inl (by decide)⟩
        (.cons ⟨⟨third, by simp⟩, fun acp root _ _ found => ?_⟩ .start)))⟩
  obtain rfl := Option.some.inj (found.symm.trans rooted)
  decide

/-- The close of the only connection takes the listener away. -/
theorem firstAccept_forgotten :
    ¬∀ (process last : Process) (events more : List ProcessEvent) (listener : Int)
      (addr : Sockaddr), process.Reached events →
      isPortRegistered process.contStr.regEnvStr addr.port = true →
      process.contStr.socStr.sockRb.get listener = none →
      Run (fun process event next => ProcessStep process event next ∧
        event ≠ .call (.close listener)) (process.bound listener addr) more last →
      last.contStr.HasPort listener addr.port := by
  intro assumed
  obtain ⟨registry, denotes⟩ := serverSocket_reachable.denotes
  have accepted := denotes.accept 3 4
  obtain ⟨last, done, freed⟩ := accepted.close 4
  have only : Registry.Last (acceptedRegistry 3 4 registry) 4 3 :=
    accepted.last_iff.mpr ⟨⟨3, .zero, .zero⟩, ⟨80, 1⟩, by decide, rfl, by decide, by decide⟩
  have second : ProcessStep firstAccept (.call (.close 4)) _ := .closes done
  have kept := assumed _ _ _ _ 3 ⟨afInet, 0, 80⟩ serverProcess_reached (by decide) (by decide)
    (.cons ⟨firstAccept_step, nofun⟩ (.cons ⟨second, by simp⟩ .start))
  have gone := Registry.valueOf_detach_last only
  exact absurd (gone.symm.trans (freed.hasPort_iff.mp kept)) nofun

end Server

end BandwidthLimiter
