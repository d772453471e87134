import BandwidthLimiter.Limiter.Threads

namespace BandwidthLimiter
open Foundation

/-- The eight wrappers that move data. -/
inductive Wrapper where
  | read
  | readv
  | recv
  | recvfrom
  | write
  | writev
  | send
  | sendto
  deriving DecidableEq, Repr

namespace Wrapper

/-- The read direction is true. -/
def flag : Wrapper → Bool
  | .read | .readv | .recv | .recvfrom => true
  | .write | .writev | .send | .sendto => false

/-- The wrappers that leave the accounting to the kernel. -/
def vectored : Wrapper → Bool
  | .readv | .writev => true
  | _ => false

def perform (contStr : ControllerStruct) (fd : Int) (count : Nat) (now : Timespec)
    (libc : Nat → Int × Timespec) : Wrapper → Except Stop (ControllerStruct × Int)
  | .read => BandwidthLimiter.read contStr fd count now libc
  | .readv => .ok (BandwidthLimiter.readv contStr fd count libc)
  | .recv => BandwidthLimiter.recv contStr fd count now libc
  | .recvfrom => BandwidthLimiter.recvfrom contStr fd count now libc
  | .write => BandwidthLimiter.write contStr fd count now libc
  | .writev => .ok (BandwidthLimiter.writev contStr fd count libc)
  | .send => BandwidthLimiter.send contStr fd count now libc
  | .sendto => BandwidthLimiter.sendto contStr fd count now libc

theorem perform_scalar {wrapper : Wrapper} (scalar : wrapper.vectored = false)
    (contStr : ControllerStruct) (fd : Int) (count : Nat) (now : Timespec)
    (libc : Nat → Int × Timespec) :
    wrapper.perform contStr fd count now libc = transfer contStr wrapper.flag fd count now libc := by
  cases wrapper <;> first | rfl | cases scalar

theorem perform_vectored {wrapper : Wrapper} (vectored : wrapper.vectored = true)
    (contStr : ControllerStruct) (fd : Int) (count : Nat) (now : Timespec)
    (libc : Nat → Int × Timespec) :
    wrapper.perform contStr fd count now libc = .ok (contStr, (libc count).1) := by
  cases wrapper <;> first | rfl | cases vectored

end Wrapper

/-- One data call with its clock readings and its libc result. -/
structure DataCall where
  wrapper : Wrapper
  fd : Int
  count : Nat
  now : Timespec
  moved : Int
  later : Timespec
  deriving DecidableEq, Repr

/-- The events of a sequential program. A data call carries the port of its descriptor, and whether
its `pre_op` starts a new window. -/
inductive DataEvent where
  | data (call : DataCall) (dest : Option UInt32) (refilled : Bool)
  | other (event : Section)

/-- A new window starts in the `pre_op` of the call. -/
def ControllerStruct.refillsCall (contStr : ControllerStruct) (call : DataCall)
    (dest : Option UInt32) : Bool :=
  !call.wrapper.vectored &&
    dest.any fun port => contStr.refills port call.wrapper.flag call.now

/-- Each data call runs to its end, and any other section may come between two data calls. -/
inductive DataStep : ControllerStruct → DataEvent → ControllerStruct → Prop where
  | data {contStr next : ControllerStruct} {call : DataCall} {dest : Option UInt32}
      (found : getDestPort contStr.socStr call.fd = .ok dest)
      (done : call.wrapper.perform contStr call.fd call.count call.now
        (fun _ => (call.moved, call.later)) = .ok (next, call.moved)) :
      DataStep contStr (.data call dest (contStr.refillsCall call dest)) next
  | other {contStr next : ControllerStruct} {event : Section} (socket : event.transfers = false)
      (taken : SectionStep contStr event next) : DataStep contStr (.other event) next

/-- The bytes since the last new window, and the time of the last call that moved bytes. -/
structure Ledger where
  spent : Int
  last : Timespec
  deriving DecidableEq, Repr

/-- The ledger of a port counts the calls of the selected wrappers. -/
def Ledger.record (counts : Wrapper → Bool) (port : UInt32) (ledger : Ledger) : DataEvent → Ledger
  | .data call dest refilled =>
      if dest = some port ∧ counts call.wrapper = true then
        let spent := if refilled then 0 else ledger.spent
        if 0 < call.moved then ⟨spent + call.moved, call.later⟩ else ⟨spent, ledger.last⟩
      else ledger
  | .other _ => ledger

def ledger (counts : Wrapper → Bool) (port : UInt32) (events : List DataEvent) : Ledger :=
  events.foldl (Ledger.record counts port) ⟨0, .zero⟩

/-- The wrappers of a direction. -/
def Wrapper.moves (flag : Bool) (wrapper : Wrapper) : Bool := wrapper.flag = flag

/-- The wrappers of a direction that the code accounts for. -/
def Wrapper.charges (flag : Bool) (wrapper : Wrapper) : Bool :=
  wrapper.flag = flag && !wrapper.vectored

/-- The remaining count and the stored time of the entry agree with the ledger. -/
structure Conserved (flag : Bool) (port : UInt32) (limit : Int) (ledger : Ledger)
    (contStr : ControllerStruct) (data : PortStruct) : Prop where
  found : contStr.regEnvStr.get port = some data
  same : data.limit flag = limit
  remaining : data.remaining flag = max 0 (limit - ledger.spent)
  last : data.startTime flag = ledger.last

theorem ledger_snoc (counts : Wrapper → Bool) (port : UInt32) (events : List DataEvent)
    (event : DataEvent) : ledger counts port (events ++ [event]) =
      (ledger counts port events).record counts port event := by
  simp [ledger, List.foldl_append]

section Frame

variable {contStr next : ControllerStruct} {fd : Int} {port q : UInt32} {flag : Bool}
  {now later : Timespec} {count : Nat} {moved : Int}

/-- A data call on another port leaves the entry of the port. -/
theorem transfer_other
    (dest : getDestPort contStr.socStr fd = .ok (some port)) (different : q ≠ port)
    (done : transfer contStr flag fd count now (fun _ => (moved, later)) = .ok (next, moved)) :
    next.regEnvStr.get q = contStr.regEnvStr.get q := by
  cases found : contStr.regEnvStr.get port with
  | none => rw [transfer_missing dest found done]
  | some data => rw [transfer_ports dest found done, if_neg different]

end Frame

namespace Conserved

variable {contStr next : ControllerStruct} {event : DataEvent} {port : UInt32} {flag : Bool}
  {now later : Timespec} {moved limit : Int} {ledger : Ledger} {data : PortStruct} {call : DataCall}
  {dest : Option UInt32} {refilled : Bool}

theorem frame (conserved : Conserved flag port limit ledger contStr data)
    (same : next.regEnvStr.get port = contStr.regEnvStr.get port) :
    Conserved flag port limit ledger next data :=
  ⟨same.trans conserved.found, conserved.same, conserved.remaining, conserved.last⟩

/-- A call in the other direction keeps the count and the time of this direction. -/
theorem other (conserved : Conserved flag port limit ledger contStr data)
    {direction : Bool} (different : flag ≠ direction)
    (entry : next.regEnvStr.get port = some
      (if 0 < moved then (data.opened direction now).closed direction moved later
        else data.opened direction now)) :
    ∃ after, Conserved flag port limit ledger next after := by
  obtain ⟨-, same, remaining, last⟩ := conserved
  have kept : (data.opened direction now).remaining flag = data.remaining flag :=
    PortStruct.remaining_opened_of_ne different
  refine ⟨_, entry, ?_, ?_, ?_⟩
  · split <;> simpa using same
  · split
    · rw [PortStruct.remaining_closed, if_neg different, kept, remaining]
      omega
    · rw [kept, remaining]
  · split <;> simpa [different] using last

/-- A call in this direction is recorded. -/
theorem own (conserved : Conserved flag port limit ledger contStr data) (limited : 0 < limit)
    (direction : call.wrapper.charges flag = true)
    (entry : next.regEnvStr.get port = some
      (if 0 < call.moved then (data.opened flag call.now).closed flag call.moved call.later
        else data.opened flag call.now)) :
    ∃ after, Conserved flag port limit
      (ledger.record (Wrapper.charges flag) port (.data call (some port) (data.refills flag call.now)))
      next after := by
  obtain ⟨-, rfl, remaining, last⟩ := conserved
  have proper : data.limit flag ≠ -1 := by omega
  have opened : (data.opened flag call.now).remaining flag =
      max 0 (data.limit flag - if data.refills flag call.now then 0 else ledger.spent) := by
    rw [← PortStruct.offer_eq_remaining limited.le, PortStruct.offer, if_neg proper]
    split
    · omega
    · exact remaining
  refine ⟨_, entry, ?_, ?_, ?_⟩
  · split <;> simp
  · simp only [Ledger.record, direction, and_self, if_true]
    split
    · rw [PortStruct.remaining_closed, if_pos rfl, opened]
      dsimp only
      omega
    · exact opened
  · simp only [Ledger.record, direction, and_self, if_true]
    split
    · simp
    · simpa using last

end Conserved

variable {contStr next : ControllerStruct} {event : DataEvent} {events : List DataEvent}
  {port : UInt32} {flag : Bool} {limit : Int} {data : PortStruct}

/-- A call that the ledger does not count leaves it. -/
theorem Ledger.record_other {counts : Wrapper → Bool} {ledger : Ledger} {call : DataCall}
    {dest : Option UInt32} {refilled : Bool}
    (other : ¬(dest = some port ∧ counts call.wrapper = true)) :
    ledger.record counts port (.data call dest refilled) = ledger := if_neg other

/-- Each event of a run keeps the entry in step with the calls that the code accounts for. -/
theorem DataStep.conserved {ledger : Ledger} (limited : 0 < limit)
    (before : Conserved flag port limit ledger contStr data)
    (taken : DataStep contStr event next) : ∃ after,
      Conserved flag port limit (ledger.record (Wrapper.charges flag) port event) next after := by
  cases taken with
  | other socket taken => exact ⟨data, before.frame (by rw [taken.env_eq socket])⟩
  | @data _ call dest found done =>
      cases vectored : call.wrapper.vectored with
      | true =>
          rw [Wrapper.perform_vectored vectored, Except.ok.injEq, Prod.mk.injEq] at done
          rw [Ledger.record_other (by simp [Wrapper.charges, vectored]), ← done.1]
          exact ⟨data, before⟩
      | false =>
          rw [Wrapper.perform_scalar vectored] at done
          cases dest with
          | none =>
              rw [Ledger.record_other (by simp), transfer_lost found done]
              exact ⟨data, before⟩
          | some q =>
              by_cases same : q = port
              · subst same
                have entry := transfer_spec found before.found done
                by_cases direction : call.wrapper.flag = flag
                · subst direction
                  have refilled : contStr.refillsCall call (some q) =
                      data.refills call.wrapper.flag call.now := by
                    simp [ControllerStruct.refillsCall, vectored, ControllerStruct.refills,
                      before.found]
                  rw [refilled]
                  exact before.own limited (by simp [Wrapper.charges, vectored]) entry
                · rw [Ledger.record_other (by simp [Wrapper.charges, direction])]
                  exact before.other (Ne.symm direction) entry
              · rw [Ledger.record_other (by simp [same])]
                exact ⟨data, before.frame (transfer_other found (Ne.symm same) done)⟩

/-- The entry of a registered port starts with its whole budget. -/
theorem Registered.conserved {env : RegisterEnvStruct} (registered : Registered env)
    (found : env.get port = some data) (limited : 0 < data.limit flag) :
    Conserved flag port (data.limit flag) ⟨0, .zero⟩ (initEnv env) data := by
  obtain ⟨number, up, down, latency, rfl⟩ := registered.ofLimits found
  refine ⟨found, rfl, ?_, PortStruct.startTime_ofLimits ..⟩
  rw [PortStruct.remaining_ofLimits]
  dsimp only
  omega

/-- In every run the entry is in step with the calls that the code accounts for. -/
theorem dataRun_charged {env : RegisterEnvStruct} (registered : Registered env)
    (found : env.get port = some data) (limited : 0 < data.limit flag)
    (run : Run DataStep (initEnv env) events contStr) : ∃ after,
      Conserved flag port (data.limit flag) (ledger (Wrapper.charges flag) port events) contStr
        after := by
  refine run.history (fun events contStr => ∃ after, Conserved flag port (data.limit flag)
    (ledger (Wrapper.charges flag) port events) contStr after)
    ⟨data, registered.conserved found limited⟩ ?_
  rintro events state event next ⟨before, conserved⟩ taken
  rw [ledger_snoc]
  exact taken.conserved limited conserved

/-- No vectored call on the port moves bytes in the direction. -/
def DataEvent.Scalar (flag : Bool) (port : UInt32) : DataEvent → Prop
  | .data call dest _ => dest = some port → call.wrapper.moves flag = true →
      call.wrapper.vectored = true → call.moved ≤ 0
  | .other _ => True

/-- Such an event is the same for the ledger of all calls and for the ledger of the accounted calls. -/
theorem DataStep.record_scalar (taken : DataStep contStr event next)
    (scalar : event.Scalar flag port) (ledger : Ledger) :
    ledger.record (Wrapper.moves flag) port event =
      ledger.record (Wrapper.charges flag) port event := by
  cases taken with
  | other socket taken => rfl
  | @data _ call dest found done =>
      cases vectored : call.wrapper.vectored with
      | false =>
          have same : call.wrapper.moves flag = call.wrapper.charges flag := by
            simp [Wrapper.moves, Wrapper.charges, vectored]
          simp only [Ledger.record, same]
      | true =>
          have uncounted : call.wrapper.charges flag = false := by
            simp [Wrapper.charges, vectored]
          have skipped : ledger.record (Wrapper.charges flag) port
              (.data call dest (contStr.refillsCall call dest)) = ledger :=
            Ledger.record_other (by simp [uncounted])
          rw [skipped]
          by_cases counted : dest = some port ∧ call.wrapper.moves flag = true
          · have idle := Int.not_lt.mpr (scalar counted.1 counted.2 vectored)
            have kept : contStr.refillsCall call dest = false := by
              simp [ControllerStruct.refillsCall, vectored]
            simp only [Ledger.record, if_pos counted, kept, if_neg idle, Bool.false_eq_true, if_false]
          · exact Ledger.record_other counted

/-- A vectored transfer on the port is recorded by the ledger of all calls alone. -/
theorem DataStep.record_vectored (taken : DataStep contStr event next)
    (vectored : ¬event.Scalar flag port) (ledger : Ledger) : next = contStr ∧
      ∃ call dest refilled, event = .data call dest refilled ∧
        (ledger.record (Wrapper.moves flag) port event).last = call.later := by
  cases taken with
  | other socket taken => exact absurd trivial vectored
  | @data _ call dest found done =>
      simp only [DataEvent.Scalar, Classical.not_imp, Int.not_le] at vectored
      obtain ⟨rfl, moves, vectored, positive⟩ := vectored
      rw [Wrapper.perform_vectored vectored, Except.ok.injEq, Prod.mk.injEq] at done
      refine ⟨done.1.symm, call, _, _, rfl, ?_⟩
      simp only [Ledger.record, moves, and_self, if_true, if_pos positive]

/-- In every run without vectored transfers on the port the remaining count is the limit without the
bytes since the last new window, and the stored time is the time of the last transfer; a vectored
transfer at another time breaks this. -/
theorem dataRun_conserved {env : RegisterEnvStruct} (registered : Registered env)
    (found : env.get port = some data) (limited : 0 < data.limit flag)
    (run : Run (fun contStr event next => DataStep contStr event next ∧ event.Scalar flag port)
      (initEnv env) events contStr) : ∃ after,
    Conserved flag port (data.limit flag) (ledger (Wrapper.moves flag) port events) contStr after ∧
      ∀ event next, DataStep contStr event next → ¬event.Scalar flag port →
        (∀ call dest refilled, event = .data call dest refilled →
          call.later ≠ after.startTime flag) →
        ∀ last, ¬Conserved flag port (data.limit flag)
          (ledger (Wrapper.moves flag) port (events ++ [event])) next last := by
  have same : ledger (Wrapper.moves flag) port events =
      ledger (Wrapper.charges flag) port events := by
    refine run.history (fun events _ => ledger (Wrapper.moves flag) port events =
      ledger (Wrapper.charges flag) port events) rfl ?_
    rintro events state event next before ⟨taken, scalar⟩
    rw [ledger_snoc, ledger_snoc, before]
    exact taken.record_scalar scalar _
  obtain ⟨after, conserved⟩ := dataRun_charged registered found limited
    (run.mono fun _ _ _ taken => taken.1)
  rw [← same] at conserved
  refine ⟨after, conserved, fun event next taken vectored other last broken => ?_⟩
  obtain ⟨rfl, call, dest, refilled, rfl, recorded⟩ :=
    taken.record_vectored vectored (ledger (Wrapper.moves flag) port events)
  obtain rfl := Option.some.inj (conserved.found.symm.trans broken.found)
  have later := broken.last
  rw [ledger_snoc, recorded] at later
  exact other call dest refilled rfl later.symm

section Client

/-- A read and a vectored read of the client connection. -/
def clientCall (wrapper : Wrapper) : DataCall := ⟨wrapper, 4, 9000, ⟨1, 0⟩, 1000, ⟨1, 5⟩⟩

theorem clientConnection_step : DataStep (initEnv (doRegister 80 5 5 0))
    (.other (.connect 4 ⟨afInet, 0, 80⟩)) (clientConnection 5) :=
  .other rfl (.connect 4 ⟨afInet, 0, 80⟩)

/-- A data call of an accounted wrapper on a connection of the port. -/
theorem scalarStep_exists (call : DataCall) (refilled : Bool) (scalar : call.wrapper.vectored = false)
    (dest : getDestPort contStr.socStr call.fd = .ok (some port))
    (found : contStr.regEnvStr.get port = some data)
    (refills : data.refills call.wrapper.flag call.now = refilled) : ∃ next,
    DataStep contStr (.data call (some port) refilled) next ∧ next.socStr = contStr.socStr ∧
      next.regEnvStr.get port = some (if 0 < call.moved then
        (data.opened call.wrapper.flag call.now).closed call.wrapper.flag call.moved call.later
        else data.opened call.wrapper.flag call.now) := by
  obtain ⟨next, done, sockets⟩ := transfer_done dest found call.wrapper.flag call.count call.now
    call.moved call.later
  have entry := transfer_spec dest found done
  rw [← Wrapper.perform_scalar scalar] at done
  have same : contStr.refillsCall call (some port) = refilled := by
    simp [ControllerStruct.refillsCall, scalar, ControllerStruct.refills, found, refills]
  exact ⟨next, same ▸ .data dest done, sockets, entry⟩

/-- A read, a send, a vectored read that fails, and a read in a new window. -/
def mixedCalls : List DataEvent :=
  [.other (.connect 4 ⟨afInet, 0, 80⟩), .data (clientCall .read) (some 80) false,
    .data ⟨.send, 4, 300, ⟨1, 10⟩, 300, ⟨1, 15⟩⟩ (some 80) true,
    .data ⟨.readv, 4, 700, ⟨1, 20⟩, -1, ⟨1, 20⟩⟩ (some 80) false,
    .data ⟨.recv, 4, 9000, ⟨3, 0⟩, 4000, ⟨3, 5⟩⟩ (some 80) true]

theorem mixedCalls_conserved : ∃ contStr after,
    Run DataStep (initEnv (doRegister 80 5 5 0)) mixedCalls contStr ∧
      Conserved true 80 5000 (ledger (Wrapper.moves true) 80 mixedCalls) contStr after ∧
      ledger (Wrapper.moves true) 80 mixedCalls = ⟨4000, ⟨3, 5⟩⟩ := by
  have found : (doRegister 80 5 5 0).get 80 = some (.ofLimits 80 5 5 0) := by decide
  have limited : 0 < (PortStruct.ofLimits 80 5 5 0).limit true := by decide
  obtain ⟨first, read, kept, entry⟩ :=
    scalarStep_exists (clientCall .read) false rfl clientDest clientEntry (by decide)
  have dest : getDestPort first.socStr 4 = .ok (some 80) := kept ▸ clientDest
  obtain ⟨second, send, kept, entry⟩ :=
    scalarStep_exists ⟨.send, 4, 300, ⟨1, 10⟩, 300, ⟨1, 15⟩⟩ true rfl dest entry (by decide)
  have dest : getDestPort second.socStr 4 = .ok (some 80) := kept ▸ dest
  have vectored : DataStep second (.data ⟨.readv, 4, 700, ⟨1, 20⟩, -1, ⟨1, 20⟩⟩ (some 80) false)
    second := .data dest rfl
  obtain ⟨last, recv, -⟩ :=
    scalarStep_exists ⟨.recv, 4, 9000, ⟨3, 0⟩, 4000, ⟨3, 5⟩⟩ true rfl dest entry (by decide)
  have run : Run (fun contStr event next => DataStep contStr event next ∧ event.Scalar true 80)
      (initEnv (doRegister 80 5 5 0)) mixedCalls last :=
    .cons ⟨clientConnection_step, trivial⟩ (.cons ⟨read, nofun⟩ (.cons ⟨send, nofun⟩
      (.cons ⟨vectored, fun _ _ _ => by decide⟩ (.cons ⟨recv, nofun⟩ .start))))
  obtain ⟨after, conserved, -⟩ := dataRun_conserved (.environment 80 5 5 0) found limited run
  exact ⟨last, after, run.mono fun _ _ _ taken => taken.1, conserved, by decide⟩

/-- A vectored read moves bytes that the limiter does not charge. -/
theorem clientCall_uncharged :
    ¬∀ (env : RegisterEnvStruct) (events : List DataEvent) (contStr : ControllerStruct)
      (port : UInt32) (data : PortStruct) (flag : Bool), Registered env →
      env.get port = some data → 0 < data.limit flag → Run DataStep (initEnv env) events contStr →
      ∃ after, Conserved flag port (data.limit flag) (ledger (Wrapper.moves flag) port events)
        contStr after := by
  intro assumed
  have found : (doRegister 80 5 5 0).get 80 = some (.ofLimits 80 5 5 0) := by decide
  have taken : DataStep (clientConnection 5) (.data (clientCall .readv) (some 80)
    ((clientConnection 5).refillsCall (clientCall .readv) (some 80))) (clientConnection 5) :=
    .data clientDest rfl
  obtain ⟨after, conserved⟩ := assumed _ _ _ 80 _ true (.environment 80 5 5 0) found (by decide)
    (.cons clientConnection_step (.cons taken .start))
  obtain rfl := Option.some.inj (clientEntry.symm.trans conserved.found)
  exact absurd conserved.last (by decide)

end Client

end BandwidthLimiter
