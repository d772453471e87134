import BandwidthLimiter.Foundation.Erasure
import BandwidthLimiter.Limiter.Effects
import BandwidthLimiter.Limiter.Request
import BandwidthLimiter.Socket.Latency

namespace BandwidthLimiter
open Foundation

/-- The caller supplies the clock reading. -/
def initStartTimeForLatency (contStr : ControllerStruct) (acpSocFd : Int) (flag : Bool)
    (currentTime : Timespec) : ControllerStruct × Bool :=
  let (socStr, done) := insertStartTimeOfPacket contStr.socStr acpSocFd flag currentTime
  ({ contStr with socStr }, done)

/-- A locked section, or the start of a request for the latency. -/
inductive LatencyEvent where
  | call (event : Section)
  | start (fd : Int) (flag : Bool) (now : Timespec)

def LatencyEvent.visible : LatencyEvent → Option Section
  | .call event => some event
  | .start _ _ _ => none

inductive LatencyStep : ControllerStruct → LatencyEvent → ControllerStruct → Prop where
  | call {contStr next : ControllerStruct} {event : Section} (taken : SectionStep contStr event next) :
      LatencyStep contStr (.call event) next
  | start {contStr : ControllerStruct} (fd : Int) (flag : Bool) (now : Timespec) :
      LatencyStep contStr (.start fd flag now) (initStartTimeForLatency contStr fd flag now).1

def ControllerStruct.untimed (contStr : ControllerStruct) : ControllerStruct :=
  { contStr with socStr := contStr.socStr.untimed }

section Sections

variable (contStr : ControllerStruct)

theorem untimed_regisNewCreatedSocket (fd : Int) (port : UInt32) :
    regisNewCreatedSocket contStr.untimed fd port =
      ((regisNewCreatedSocket contStr fd port).1.untimed, (regisNewCreatedSocket contStr fd port).2) := by
  simp only [regisNewCreatedSocket, ControllerStruct.untimed, untimed_initSock]
  split <;> rfl

theorem untimed_connect (fd : Int) (addr : Sockaddr) :
    connect contStr.untimed fd addr = (connect contStr fd addr).untimed := by
  simp only [connect, untimed_regisNewCreatedSocket]
  split
  · simp only [ControllerStruct.untimed, untimed_registerSock]
  · rfl

theorem untimed_accept (fd acpFd : Int) :
    accept contStr.untimed fd acpFd = (accept contStr fd acpFd).untimed := by
  simp only [accept, ControllerStruct.untimed, untimed_registerSock]
  split <;> rfl

theorem untimed_funcDupManager (oldFd newFd : Int) :
    funcDupManager contStr.untimed oldFd newFd = (funcDupManager contStr oldFd newFd).untimed := by
  simp only [funcDupManager, ControllerStruct.untimed, untimed_copyFd]

theorem untimed_close (fd : Int) :
    close contStr.untimed fd = (close contStr fd).map ControllerStruct.untimed := by
  simp only [close, ControllerStruct.untimed, untimed_unregister]
  cases unregisterSocketDescriptor contStr.socStr fd <;> rfl

theorem untimed_enter (flag : Bool) (fd : Int) (count : Nat) (now : Timespec) :
    enter contStr.untimed flag fd count now =
      (enter contStr flag fd count now).map fun result => (result.1.untimed, result.2) := by
  simp only [enter, preOp, getPortRemainfByte, ControllerStruct.untimed, untimed_present,
    untimed_getDestPort]
  split
  · cases getDestPort contStr.socStr fd with
    | error stop => rfl
    | ok found => cases found <;> rfl
  · rfl

theorem untimed_leave (flag : Bool) (fd moved : Int) (now : Timespec) :
    leave contStr.untimed flag fd moved now =
      (leave contStr flag fd moved now).map ControllerStruct.untimed := by
  simp only [leave, doUpdate, updateTime, ControllerStruct.untimed, untimed_getDestPort]
  split
  · cases dest : getDestPort contStr.socStr fd with
    | error stop => rfl
    | ok found =>
        cases found with
        | none => simp [dest, Except.map, untimed_getDestPort, ControllerStruct.untimed]
        | some port => simp [dest, Except.map, untimed_getDestPort, ControllerStruct.untimed]
  · rfl

theorem map_eq_ok {A B : Type} {result : Except Stop A} {f : A → B} {b : B} :
    result.map f = .ok b ↔ ∃ a, result = .ok a ∧ f a = b := by
  cases result <;> simp [Except.map]

/-- A section takes the same steps without the times of the requests. -/
theorem untimed_step_iff {event : Section} {image : ControllerStruct} :
    SectionStep contStr.untimed event image ↔
      ∃ next, SectionStep contStr event next ∧ next.untimed = image := by
  have bound (fd : Int) (addr : Sockaddr) :
      bind contStr.untimed fd addr = (bind contStr fd addr).untimed :=
    congrArg Prod.fst (untimed_regisNewCreatedSocket contStr fd addr.port)
  have copied (oldFd newFd : Int) :
      dup contStr.untimed oldFd newFd = (dup contStr oldFd newFd).untimed := by
    simp only [dup, untimed_funcDupManager]
    split <;> rfl
  have moved (oldFd newFd returnVal : Int) :
      dup2 contStr.untimed oldFd newFd returnVal = (dup2 contStr oldFd newFd returnVal).untimed := by
    simp only [dup2, untimed_funcDupManager]
    split <;> rfl
  constructor
  · intro taken
    cases taken with
    | bind fd addr => exact ⟨_, .bind fd addr, (bound fd addr).symm⟩
    | connect fd addr => exact ⟨_, .connect fd addr, (untimed_connect contStr fd addr).symm⟩
    | accept fd acpFd => exact ⟨_, .accept fd acpFd, (untimed_accept contStr fd acpFd).symm⟩
    | close done =>
        obtain ⟨next, done, same⟩ := map_eq_ok.mp ((untimed_close contStr _).symm.trans done)
        exact ⟨next, .close done, same⟩
    | dup oldFd newFd => exact ⟨_, .dup oldFd newFd, (copied oldFd newFd).symm⟩
    | dup2 oldFd newFd returnVal =>
        exact ⟨_, .dup2 oldFd newFd returnVal, (moved oldFd newFd returnVal).symm⟩
    | enter done =>
        obtain ⟨⟨next, granted⟩, entered, same⟩ :=
          map_eq_ok.mp ((untimed_enter contStr _ _ _ _).symm.trans done)
        obtain ⟨equal, rfl⟩ := Prod.mk.inj same
        exact ⟨next, .enter entered, equal⟩
    | leave done =>
        obtain ⟨next, done, same⟩ := map_eq_ok.mp ((untimed_leave contStr _ _ _ _).symm.trans done)
        exact ⟨next, .leave done, same⟩
  · rintro ⟨next, taken, rfl⟩
    cases taken with
    | bind fd addr => exact bound fd addr ▸ .bind fd addr
    | connect fd addr => exact untimed_connect contStr fd addr ▸ .connect fd addr
    | accept fd acpFd => exact untimed_accept contStr fd acpFd ▸ .accept fd acpFd
    | close done => exact .close ((untimed_close contStr _).trans (map_eq_ok.mpr ⟨next, done, rfl⟩))
    | dup oldFd newFd => exact copied oldFd newFd ▸ .dup oldFd newFd
    | dup2 oldFd newFd returnVal => exact moved oldFd newFd returnVal ▸ .dup2 oldFd newFd returnVal
    | enter done =>
        exact .enter ((untimed_enter contStr _ _ _ _).trans (map_eq_ok.mpr ⟨_, done, rfl⟩))
    | leave done => exact .leave ((untimed_leave contStr _ _ _ _).trans (map_eq_ok.mpr ⟨_, done, rfl⟩))

end Sections

section Runs

variable {env : RegisterEnvStruct} {events : List LatencyEvent} {contStr next plain : ControllerStruct}

/-- A section of the one controller is possible in each controller that differs in its times only. -/
theorem SectionStep.untimed {event : Section} (taken : SectionStep contStr event next)
    (same : contStr.untimed = plain.untimed) :
    ∃ image, SectionStep plain event image ∧ next.untimed = image.untimed := by
  have shown := (untimed_step_iff contStr).mpr ⟨next, taken, rfl⟩
  rw [same] at shown
  obtain ⟨image, taken, equal⟩ := (untimed_step_iff plain).mp shown
  exact ⟨image, taken, equal.symm⟩

theorem initStartTime_untimed (contStr : ControllerStruct) (fd : Int) (flag : Bool) (now : Timespec) :
    (initStartTimeForLatency contStr fd flag now).1.untimed = contStr.untimed := by
  simp only [initStartTimeForLatency, ControllerStruct.untimed, untimed_insertStartTime]

/-- Recording the start of requests does not disturb the limiter: records at any places of a run
change no grant, no budget and no result of a section, and every run of sections stays possible with
the records between them. -/
theorem latencyRun_transparent (env : RegisterEnvStruct) (events : List LatencyEvent) :
    (∀ contStr, Run LatencyStep (initEnv env) events contStr →
      ∃ plain, Run SectionStep (initEnv env) (events.filterMap LatencyEvent.visible) plain ∧
        contStr.untimed = plain.untimed) ∧
    ∀ plain, Run SectionStep (initEnv env) (events.filterMap LatencyEvent.visible) plain →
      ∃ contStr, Run LatencyStep (initEnv env) events contStr ∧
        contStr.untimed = plain.untimed := by
  let Same (contStr plain : ControllerStruct) : Prop := contStr.untimed = plain.untimed
  constructor
  · intro contStr run
    apply run.erase LatencyEvent.visible Same rfl
    · intro contStr plain event label next same seen taken
      cases taken with
      | call taken =>
          obtain rfl := Option.some.inj seen
          exact taken.untimed same
      | start => cases seen
    · intro contStr plain event next same seen taken
      cases taken with
      | call => cases seen
      | start fd flag now => exact (initStartTime_untimed contStr fd flag now).trans same
  · intro plain run
    apply run.unerase LatencyEvent.visible Same rfl
    · intro contStr plain event label image same seen taken
      cases event with
      | call event =>
          obtain rfl := Option.some.inj seen
          obtain ⟨next, taken, equal⟩ := taken.untimed same.symm
          exact ⟨next, .call taken, equal.symm⟩
      | start => cases seen
    · intro contStr plain event same seen
      cases event with
      | call => cases seen
      | start fd flag now =>
          exact ⟨_, .start fd flag now, (initStartTime_untimed contStr fd flag now).trans same⟩

/-- A read whose start is recorded, on a connection to port 80. -/
def recordedRead : List LatencyEvent :=
  [.call (.connect 4 ⟨afInet, 0, 80⟩), .start 4 true ⟨1, 0⟩,
    .call (.enter true 4 100 ⟨1, 0⟩ ⟨true, 100, none⟩)]

theorem recordedRead_transparent : ∃ contStr plain : ControllerStruct,
    Run LatencyStep (initEnv (doRegister 80 5 5 0)) recordedRead contStr ∧
      contStr.untimed = plain.untimed := by
  obtain ⟨next, entered⟩ : ∃ next, enter (clientConnection 5) true 4 100 ⟨1, 0⟩ =
      .ok (next, ⟨true, 100, none⟩) := ⟨_, rfl⟩
  have plain : Run SectionStep (initEnv (doRegister 80 5 5 0))
      (recordedRead.filterMap LatencyEvent.visible) next :=
    .cons (.connect 4 ⟨afInet, 0, 80⟩) (.cons (.enter entered) .start)
  obtain ⟨contStr, run, same⟩ := (latencyRun_transparent _ recordedRead).2 next plain
  exact ⟨contStr, next, run, same⟩

end Runs

section Times

variable {fd : Int} {flag : Bool} {time : Timespec}

/-- The section neither closes the descriptor nor duplicates another one onto its number. -/
def Section.Spares (fd : Int) : Section → Prop
  | .close closed => closed ≠ fd
  | .dup _ newFd => newFd ≠ fd
  | .dup2 _ newFd _ => newFd ≠ fd
  | _ => True

theorem Section.Spares.ops {event : Section} {contStr : ControllerStruct} (spares : event.Spares fd)
    {op : SockOp} (mem : Effect.store op ∈ event.effects contStr) : op.Spares fd := by
  cases event with
  | bind | connect | accept | dup | dup2 =>
      simp only [Section.effects] at mem
      grind [SockOp.Spares, Section.Spares]
  | close closed =>
      simp only [Section.effects, List.mem_singleton, Effect.store.injEq] at mem
      exact mem ▸ spares
  | enter =>
      simp only [Section.effects, Section.windowEffects] at mem
      grind
  | leave =>
      simp only [Section.effects] at mem
      grind

theorem EffectStep.started {contStr next : ControllerStruct} {effect : Effect}
    (started : contStr.socStr.Started fd flag time) (taken : EffectStep contStr effect next)
    (spares : ∀ op, effect = .store op → op.Spares fd) : next.socStr.Started fd flag time := by
  cases effect with
  | store op =>
      simp only [EffectStep, Effect.apply] at taken
      obtain ⟨soS, done, rfl⟩ := map_eq_ok.mp taken
      exact SockStep.started started done (spares op rfl)
  | table port change =>
      obtain rfl := Except.ok.inj taken
      exact started

/-- The event keeps the recorded time of a direction. -/
def LatencyEvent.Spares (fd : Int) (flag : Bool) : LatencyEvent → Prop
  | .call event => event.Spares fd
  | .start other way _ => ¬(other = fd ∧ way = flag)

theorem LatencyStep.started {contStr next : ControllerStruct} {event : LatencyEvent}
    (started : contStr.socStr.Started fd flag time) (taken : LatencyStep contStr event next)
    (spares : event.Spares fd flag) : next.socStr.Started fd flag time := by
  cases taken with
  | start other way now => exact started.record spares now
  | call taken =>
      apply taken.effects.invariant_of_events (fun contStr => contStr.socStr.Started fd flag time)
        (fun effect => ∀ op, effect = .store op → op.Spares fd)
      · rintro effect mem op rfl
        exact Section.Spares.ops spares mem
      · exact started
      · exact fun _ _ _ started spares taken => EffectStep.started started taken spares

/-- The time of a request is read back until the next request of its connection and direction,
whatever other calls run in between, as long as the descriptor is neither closed nor the target of a
duplication. -/
theorem latencyRun_startTime {contStr last : ControllerStruct} {events : List LatencyEvent}
    {now : Timespec} (present : isAcpSockFdPresent contStr.socStr fd = true)
    (single : (contStr.socStr.acpSocketRb.entries.countP fun entry => entry.1 = fd) ≤ 1)
    (run : Run LatencyStep (initStartTimeForLatency contStr fd flag now).1 events last)
    (spares : ∀ event ∈ events, event.Spares fd flag) :
    getStartTimeOfPacket last.socStr fd flag = some now := by
  have kept := run.invariant_of_events (fun contStr => contStr.socStr.Started fd flag now)
    (LatencyEvent.Spares fd flag) spares (insertStartTime_started present single flag now)
    fun _ _ _ started spares taken => taken.started started spares
  exact kept.read

theorem recordedRead_startTime : ∃ last : ControllerStruct,
    getStartTimeOfPacket last.socStr 4 true = some ⟨1, 0⟩ := by
  have run : Run LatencyStep (initStartTimeForLatency (clientConnection 5) 4 true ⟨1, 0⟩).1
      [.start 4 false ⟨2, 0⟩, .call (.dup 4 5), .call (.close 3)] _ :=
    .cons (.start ..) (.cons (.call (.dup ..)) (.cons (.call (.close rfl)) .start))
  exact ⟨_, latencyRun_startTime (by decide) (by decide) run
    (by simp [LatencyEvent.Spares, Section.Spares])⟩

end Times

end BandwidthLimiter
