import BandwidthLimiter.Limiter.Conservation
import Mathlib.Algebra.Order.BigOperators.Group.List

namespace BandwidthLimiter
open Foundation

/-- The bytes that the code records for a direction of a port, with the recorded times. -/
def recorded (flag : Bool) (port : UInt32) (events : List DataEvent) : List (Int × Int) :=
  events.filterMap fun event =>
    match event with
    | .data call dest _ =>
        if dest = some port ∧ call.wrapper.charges flag = true ∧ 0 < call.moved then
          some (call.later.nanos, call.moved)
        else none
    | .other _ => none

/-- The recorded bytes of the last second, without the first moment of it. -/
def lastSecond (flag : Bool) (port : UInt32) (events : List DataEvent) (now : Timespec) : Int :=
  within (recorded flag port events) (now.nanos - nanoMult + 1) now.nanos

/-- A new window is due after an idle second, and after the whole limit is spent. -/
def Ledger.due (limit : Int) (ledger : Ledger) (now : Timespec) : Bool :=
  timeDifference ledger.last now > nanoMult || limit ≤ ledger.spent

/-- The account of a direction of a port follows from its calls alone. -/
def Ledger.charge (limit : Int) (flag : Bool) (port : UInt32) (ledger : Ledger) : DataEvent → Ledger
  | .data call dest _ =>
      ledger.record (Wrapper.charges flag) port (.data call dest (ledger.due limit call.now))
  | .other _ => ledger

def account (limit : Int) (flag : Bool) (port : UInt32) (events : List DataEvent) : Ledger :=
  events.foldl (Ledger.charge limit flag port) ⟨0, .zero⟩

theorem account_snoc (limit : Int) (flag : Bool) (port : UInt32) (events : List DataEvent)
    (event : DataEvent) : account limit flag port (events ++ [event]) =
      (account limit flag port events).charge limit flag port event := by
  simp [account, List.foldl_append]

/-- A request fits the account after an idle second, or while the window has room for it. -/
def Ledger.Admits (limit : Int) (ledger : Ledger) (now : Timespec) (demand : Int) : Prop :=
  timeDifference ledger.last now > nanoMult ∨ ledger.spent + demand ≤ limit

variable {contStr next : ControllerStruct} {event : DataEvent} {events : List DataEvent}
  {port : UInt32} {flag : Bool} {limit : Int} {data : PortStruct} {ledger : Ledger} {now : Timespec}

/-- The entry starts a new window exactly when its account has one due. -/
theorem Conserved.refills_eq (conserved : Conserved flag port limit ledger contStr data)
    (limited : 0 < limit) (now : Timespec) : data.refills flag now = ledger.due limit now := by
  obtain ⟨-, rfl, remaining, last⟩ := conserved
  have proper : data.limit flag ≠ -1 := by omega
  have spent : data.remaining flag ≤ 0 ↔ data.limit flag ≤ ledger.spent := by omega
  simp only [PortStruct.refills, PortStruct.idle, Ledger.due, proper, last, spent, ne_eq,
    not_false_eq_true, decide_true, Bool.true_and]

/-- The windows of a run are the windows of its account. -/
theorem Conserved.record_eq (conserved : Conserved flag port limit ledger contStr data)
    (limited : 0 < limit) (taken : DataStep contStr event next) :
    ledger.record (Wrapper.charges flag) port event = ledger.charge limit flag port event := by
  cases taken with
  | other socket taken => rfl
  | @data _ call dest found done =>
      by_cases counted : dest = some port ∧ call.wrapper.charges flag = true
      · obtain ⟨rfl, charges⟩ := counted
        have scalar : call.wrapper.vectored = false ∧ call.wrapper.flag = flag := by
          simpa [Wrapper.charges, and_comm] using charges
        obtain ⟨scalar, rfl⟩ := scalar
        have refilled : contStr.refillsCall call (some port) =
            data.refills call.wrapper.flag call.now := by
          simp [ControllerStruct.refillsCall, scalar, ControllerStruct.refills, conserved.found]
        rw [refilled, conserved.refills_eq limited]
        rfl
      · rw [Ledger.record_other counted]
        exact (Ledger.record_other counted).symm

/-- In every run the entry agrees with the account of the calls. -/
theorem dataRun_account {env : RegisterEnvStruct} (registered : Registered env)
    (found : env.get port = some data) (limited : 0 < data.limit flag)
    (run : Run DataStep (initEnv env) events contStr) : ∃ after,
      Conserved flag port (data.limit flag) (account (data.limit flag) flag port events) contStr
        after := by
  refine run.history (fun events contStr => ∃ after, Conserved flag port (data.limit flag)
    (account (data.limit flag) flag port events) contStr after)
    ⟨data, registered.conserved found limited⟩ ?_
  rintro events state event next ⟨before, conserved⟩ taken
  rw [account_snoc, ← conserved.record_eq limited taken]
  exact taken.conserved limited conserved

/-- The recorded amounts are positive. -/
theorem lastSecond_nonneg (flag : Bool) (port : UInt32) (events : List DataEvent) (now : Timespec) :
    0 ≤ lastSecond flag port events now := by
  apply List.sum_nonneg
  intro amount mem
  obtain ⟨entry, inside, rfl⟩ := List.mem_map.mp mem
  obtain ⟨event, -, recorded⟩ := List.mem_filterMap.mp (List.mem_filter.mp inside).1
  split at recorded
  · split at recorded
    · rename_i counted
      rw [← Option.some.inj recorded]
      exact counted.2.2.le
    · cases recorded
  · cases recorded

/-- A request of at most the limit passes unchanged exactly when its account admits it. -/
theorem Conserved.preOp_iff (conserved : Conserved flag port limit ledger contStr data)
    {fd demand : Int} (dest : getDestPort contStr.socStr fd = .ok (some port))
    (positive : 1 ≤ demand) (bounded : demand ≤ limit) (now : Timespec) :
    (∃ next, preOp contStr fd demand flag now = .ok (next, ⟨true, demand, none⟩)) ↔
      ledger.Admits limit now demand := by
  have limited : 0 < limit := by omega
  obtain ⟨next, done, -⟩ := preOp_spec dest conserved.found demand flag now
  have window := conserved.refills_eq limited now
  obtain ⟨-, rfl, remaining, last⟩ := conserved
  have proper : data.limit flag ≠ -1 := by omega
  have passes : (∃ next, preOp contStr fd demand flag now = .ok (next, ⟨true, demand, none⟩)) ↔
      demand ≤ data.offer flag now ∧ data.sleep flag now = none := by
    simp [done]
  rw [passes, Ledger.Admits]
  by_cases idle : timeDifference ledger.last now > nanoMult
  · have due : data.refills flag now = true := by simp [window, Ledger.due, idle]
    have awake : data.idle flag now = true := by simp [PortStruct.idle, last, idle]
    simp [PortStruct.offer, PortStruct.sleep, proper, due, awake, bounded, idle]
  · have tired : data.idle flag now = false := by simpa [PortStruct.idle, last] using idle
    by_cases spent : data.limit flag ≤ ledger.spent
    · have due : data.refills flag now = true := by simp [window, Ledger.due, spent]
      have full : ¬ledger.spent + demand ≤ data.limit flag := by omega
      simp [PortStruct.sleep, due, tired, full, idle]
    · have early : data.refills flag now = false := by simp [window, Ledger.due, spent, idle]
      have room : demand ≤ data.remaining flag ↔ ledger.spent + demand ≤ data.limit flag := by omega
      simp [PortStruct.offer, PortStruct.sleep, proper, early, room, idle]

/-- After every run a request within the limit of the last second passes unchanged exactly when the
last recorded transfer is more than a second old, or the bytes since the start of the window leave
room for it. -/
theorem dataRun_unthrottled_iff {env : RegisterEnvStruct} (registered : Registered env)
    (found : env.get port = some data) (limited : 0 < data.limit flag)
    (run : Run DataStep (initEnv env) events contStr) {fd demand : Int}
    (dest : getDestPort contStr.socStr fd = .ok (some port)) (positive : 1 ≤ demand)
    (light : lastSecond flag port events now + demand ≤ data.limit flag) :
    (∃ next, preOp contStr fd demand flag now = .ok (next, ⟨true, demand, none⟩)) ↔
      (account (data.limit flag) flag port events).Admits (data.limit flag) now demand := by
  obtain ⟨after, conserved⟩ := dataRun_account registered found limited run
  have nonneg := lastSecond_nonneg flag port events now
  exact conserved.preOp_iff dest positive (by omega) now

section Client

/-- The clock readings of a run. -/
def readings (events : List DataEvent) : List Int :=
  events.flatMap fun event =>
    match event with
    | .data call _ _ => [call.now.nanos, call.later.nanos]
    | .other _ => []

/-- A read of the client connection that ends at the time of its `pre_op`. -/
def pacedRead (moved : Int) (now : Timespec) : DataCall := ⟨.read, 4, 9000, now, moved, now⟩

/-- A read on the client connection is a step. -/
theorem pacedRead_step {contStr : ControllerStruct}
    (dest : getDestPort contStr.socStr 4 = .ok (some 80))
    (found : contStr.regEnvStr.get 80 = some data) (moved : Int) (now : Timespec) :
    ∃ refilled next after, DataStep contStr (.data (pacedRead moved now) (some 80) refilled) next ∧
      getDestPort next.socStr 4 = .ok (some 80) ∧ next.regEnvStr.get 80 = some after := by
  obtain ⟨next, taken, sockets, entry⟩ := scalarStep_exists (pacedRead moved now) _ rfl dest found rfl
  exact ⟨_, next, _, taken, sockets.symm ▸ dest, entry⟩

/-- The connection and a read of 4000 bytes. -/
def firstRead (refilled : Bool) : List DataEvent :=
  [.other (.connect 4 ⟨afInet, 0, 80⟩), .data (pacedRead 4000 ⟨100, 0⟩) (some 80) refilled]

theorem firstRead_unthrottled : ∃ refilled contStr next,
    Run DataStep (initEnv (doRegister 80 5 5 0)) (firstRead refilled) contStr ∧
      preOp contStr 4 1000 true ⟨100, 900000000⟩ = .ok (next, ⟨true, 1000, none⟩) := by
  have registered : Registered (doRegister 80 5 5 0) := .environment 80 5 5 0
  have found : (doRegister 80 5 5 0).get 80 = some (.ofLimits 80 5 5 0) := by decide
  obtain ⟨refilled, contStr, -, read, dest, -⟩ := pacedRead_step clientDest clientEntry 4000 ⟨100, 0⟩
  have run : Run DataStep (initEnv (doRegister 80 5 5 0)) (firstRead refilled) contStr :=
    .cons clientConnection_step (.cons read .start)
  have light : lastSecond true 80 (firstRead refilled) ⟨100, 900000000⟩ + 1000 ≤
      (PortStruct.ofLimits 80 5 5 0).limit true := by cases refilled <;> decide
  have admits : (account 5000 true 80 (firstRead refilled)).Admits 5000 ⟨100, 900000000⟩ 1000 :=
    .inr (by cases refilled <;> decide)
  obtain ⟨next, passes⟩ := (dataRun_unthrottled_iff registered found (by decide) run dest
    (by decide) light).mpr admits
  exact ⟨refilled, contStr, next, run, passes⟩

/-- The first read and a read of 1000 bytes most of a second later. -/
def steadyReads (first second : Bool) : List DataEvent :=
  firstRead first ++ [.data (pacedRead 1000 ⟨100, 900000000⟩) (some 80) second]

/-- A byte within the limit of the last second waits for the end of an old window. -/
theorem steadyReads_throttled :
    ¬∀ (env : RegisterEnvStruct) (events : List DataEvent) (contStr : ControllerStruct)
      (port : UInt32) (data : PortStruct) (flag : Bool) (fd demand : Int) (now : Timespec),
      Registered env → env.get port = some data → 0 < data.limit flag →
      Run DataStep (initEnv env) events contStr →
      (readings events ++ [now.nanos]).Pairwise (· ≤ ·) →
      getDestPort contStr.socStr fd = .ok (some port) → 1 ≤ demand →
      lastSecond flag port events now + demand ≤ data.limit flag →
      ∃ next, preOp contStr fd demand flag now = .ok (next, ⟨true, demand, none⟩) := by
  intro assumed
  have registered : Registered (doRegister 80 5 5 0) := .environment 80 5 5 0
  have found : (doRegister 80 5 5 0).get 80 = some (.ofLimits 80 5 5 0) := by decide
  have limited : 0 < (PortStruct.ofLimits 80 5 5 0).limit true := by decide
  obtain ⟨first, middle, _, read, dest, entry⟩ := pacedRead_step clientDest clientEntry 4000 ⟨100, 0⟩
  obtain ⟨second, contStr, -, again, dest, -⟩ := pacedRead_step dest entry 1000 ⟨100, 900000000⟩
  have run : Run DataStep (initEnv (doRegister 80 5 5 0)) (steadyReads first second) contStr :=
    .cons clientConnection_step (.cons read (.cons again .start))
  have light : lastSecond true 80 (steadyReads first second) ⟨101, 800000000⟩ + 1 ≤
      (PortStruct.ofLimits 80 5 5 0).limit true := by
    cases first <;> cases second <;> decide
  have ordered : (readings (steadyReads first second) ++
      [Timespec.nanos ⟨101, 800000000⟩]).Pairwise (· ≤ ·) := by
    cases first <;> cases second <;> decide
  have passes := assumed _ _ contStr 80 _ true 4 1 ⟨101, 800000000⟩ registered found limited run
    ordered dest (by decide) light
  have late : ¬(account 5000 true 80 (steadyReads first second)).Admits 5000 ⟨101, 800000000⟩ 1 := by
    have spent : account 5000 true 80 (steadyReads first second) = ⟨5000, ⟨100, 900000000⟩⟩ := rfl
    rw [spent]
    exact fun admits => admits.elim (by decide) (by decide)
  obtain ⟨after, conserved⟩ := dataRun_account registered found limited run
  exact late ((conserved.preOp_iff dest (by decide) (by decide) ⟨101, 800000000⟩).mp passes)

end Client

end BandwidthLimiter
