import BandwidthLimiter.Limiter.Threads

namespace BandwidthLimiter
open Foundation

/-- A reading of the system clock before the ninth billionth second. -/
structure Timespec.Reading (ts : Timespec) : Prop where
  sec : 0 ≤ ts.tvSec ∧ ts.tvSec < 9 * 10 ^ 9
  nsec : 0 ≤ ts.tvNsec ∧ ts.tvNsec < 10 ^ 9

/-- A proper time of at most one second. -/
structure Timespec.Delay (ts : Timespec) : Prop where
  sec : 0 ≤ ts.tvSec
  nsec : 0 ≤ ts.tvNsec ∧ ts.tvNsec < 10 ^ 9
  total : ts.nanos ≤ 10 ^ 9

/-- The values of the operators in `time_difference__`; the last one is its result. -/
def timeDifferenceValues (oldTime currentTime : Timespec) : List Int :=
  [currentTime.tvSec * nanoMult, currentTime.tvSec * nanoMult + currentTime.tvNsec,
    oldTime.tvSec * nanoMult, oldTime.tvSec * nanoMult + oldTime.tvNsec,
    timeDifference oldTime currentTime]

/-- The signed numbers of 64 bits. -/
def InLong (value : Int) : Prop := -2 ^ 63 ≤ value ∧ value < 2 ^ 63

/-- The difference of the readings does not overflow, and a sleep is a proper delay. -/
structure SafeDelay (oldTime currentTime : Timespec) (sleepUntil : Option Timespec) : Prop where
  fits : ∀ value ∈ timeDifferenceValues oldTime currentTime, InLong value
  delay : ∀ ts ∈ sleepUntil, ts.Delay

/-- A direction that has spent its limit meets no reading before its last transfer. -/
def PortStruct.ClockKept (data : PortStruct) (flag : Bool) (now : Timespec) : Prop :=
  data.limit flag = -1 ∨ 0 < data.remaining flag ∨ (data.startTime flag).nanos ≤ now.nanos

/-- The clock readings of a section are proper. -/
def Section.Timed : Section → Prop
  | .enter _ _ _ now _ => now.Reading
  | .leave _ _ _ now => now.Reading
  | _ => True

/-- The sleep of a section is safe. -/
def Section.Delays (contStr : ControllerStruct) : Section → Prop
  | .enter flag fd _ now grant => ∀ port data, getDestPort contStr.socStr fd = .ok (some port) →
      contStr.regEnvStr.get port = some data →
        SafeDelay (data.startTime flag) now grant.sleepUntil
  | _ => True

/-- The clock of a section is not before the last transfer of a spent direction. -/
def Section.ClockKept (contStr : ControllerStruct) : Section → Prop
  | .enter flag fd _ now _ => ∀ port data, getDestPort contStr.socStr fd = .ok (some port) →
      contStr.regEnvStr.get port = some data → data.ClockKept flag now
  | _ => True

theorem Timespec.reading_zero : Timespec.zero.Reading := ⟨by decide, by decide⟩

section Difference

variable {oldTime currentTime : Timespec} {data : PortStruct} {flag : Bool} {now : Timespec}

/-- The difference of two readings fits 64 bits with all its parts. -/
theorem timeDifference_fits (old : oldTime.Reading) (current : currentTime.Reading) :
    ∀ value ∈ timeDifferenceValues oldTime currentTime, InLong value := by
  obtain ⟨oldSec, oldNsec⟩ := old
  obtain ⟨currentSec, currentNsec⟩ := current
  intro value mem
  simp only [timeDifferenceValues, timeDifference, nanoMult, List.mem_cons, List.not_mem_nil,
    or_false] at mem
  unfold InLong
  omega

/-- A delay between zero and a second is split into a proper time, and no other delay is. -/
theorem split_delay_iff {delaySleep : Int} (nonneg : 0 ≤ delaySleep) :
    Timespec.Delay ⟨delaySleep.tdiv nanoMult, delaySleep.tmod nanoMult⟩ ↔ delaySleep ≤ nanoMult := by
  have positive : 0 < nanoMult := by decide
  have total : Timespec.nanos ⟨delaySleep.tdiv nanoMult, delaySleep.tmod nanoMult⟩ = delaySleep := by
    rw [Timespec.nanos, mul_comm]
    exact Int.mul_tdiv_add_tmod ..
  constructor
  · intro delay
    exact total ▸ delay.total
  · intro short
    exact ⟨Int.tdiv_nonneg nonneg positive.le, ⟨Int.tmod_nonneg _ nonneg,
      Int.tmod_lt_of_pos _ positive⟩, total.trans_le short⟩

/-- The requested sleep is a proper delay exactly when the clock is kept. -/
theorem PortStruct.sleep_delay_iff :
    (∀ ts ∈ data.sleep flag now, ts.Delay) ↔ data.ClockKept flag now := by
  have difference : timeDifference (data.startTime flag) now =
      now.nanos - (data.startTime flag).nanos := rfl
  unfold PortStruct.sleep PortStruct.ClockKept
  by_cases sleeps : (data.refills flag now && !data.idle flag now) = true
  · rw [if_pos sleeps]
    simp only [PortStruct.refills, PortStruct.idle, difference, Bool.and_eq_true, Bool.or_eq_true,
      Bool.not_eq_true', decide_eq_true_eq, decide_eq_false_iff_not, ne_eq, gt_iff_lt] at sleeps
    obtain ⟨⟨limited, spent⟩, recent⟩ := sleeps
    have empty := spent.resolve_left recent
    simp only [Option.mem_some_iff, forall_eq', difference]
    rw [split_delay_iff (by omega)]
    omega
  · rw [if_neg sleeps]
    simp only [PortStruct.refills, PortStruct.idle, difference, Bool.and_eq_true, Bool.or_eq_true,
      Bool.not_eq_true', decide_eq_true_eq, decide_eq_false_iff_not, ne_eq, gt_iff_lt] at sleeps
    apply iff_of_true (by simp)
    have second : 0 < nanoMult := by decide
    omega

/-- A sleep between two readings is safe exactly when the clock is kept. -/
theorem PortStruct.safeDelay_iff (stored : (data.startTime flag).Reading) (current : now.Reading) :
    SafeDelay (data.startTime flag) now (data.sleep flag now) ↔ data.ClockKept flag now := by
  rw [← sleep_delay_iff]
  exact ⟨fun safe => safe.delay, fun delay => ⟨timeDifference_fits stored current, delay⟩⟩

end Difference

/-- Both stored times of an entry are clock readings. -/
def PortStruct.Timed (data : PortStruct) : Prop := ∀ flag, (data.startTime flag).Reading

section Tables

variable {contStr next : ControllerStruct} {fd : Int} {flag : Bool} {now : Timespec} {moved : Int}

/-- The window writes at most one remaining count. -/
theorem portWindow_table (env : RegisterEnvStruct) (port : UInt32) (flag : Bool) (now : Timespec) :
    (portWindow env port flag now).1 = env ∨ ∃ size, (portWindow env port flag now).1 =
      env.update port fun data => data.setRemaining flag size := by
  obtain ⟨limit, set⟩ : ∃ limit, (if !flag then getInitUpLimit env port
    else getInitDownLimit env port) = limit := ⟨_, rfl⟩
  simp only [portWindow, set, ← setByteCountWindow_fst]
  split
  · split
    · exact .inr ⟨_, rfl⟩
    · split
      · exact .inr ⟨_, rfl⟩
      · exact .inl rfl
  · exact .inr ⟨_, rfl⟩

theorem enter_table {count : Nat} {grant : Grant}
    (done : enter contStr flag fd count now = .ok (next, grant)) :
    next.regEnvStr = contStr.regEnvStr ∨ ∃ port size, next.regEnvStr =
      contStr.regEnvStr.update port fun data => data.setRemaining flag size := by
  unfold enter preOp getPortRemainfByte at done
  split at done
  · split at done
    · cases done
    · rename_i result window
      split at window
      · cases window
      · cases window
      · rename_i port dest
        obtain ⟨rfl, rfl⟩ := Prod.mk.inj (Except.ok.inj window)
        obtain ⟨rfl, -⟩ := Prod.mk.inj (Except.ok.inj done)
        exact (portWindow_table contStr.regEnvStr port flag now).imp id fun written => ⟨port, written⟩
  · obtain ⟨rfl, -⟩ := Prod.mk.inj (Except.ok.inj done)
    exact .inl rfl

theorem doUpdate_table (done : doUpdate contStr moved fd flag = .ok next) :
    next.regEnvStr = contStr.regEnvStr ∨ ∃ port, next.regEnvStr =
      contStr.regEnvStr.update port fun data => data.deduct moved flag := by
  unfold doUpdate at done
  split at done
  · split at done
    · cases done
    · exact .inl (Except.ok.inj done ▸ rfl)
    · rename_i port dest
      obtain rfl := Except.ok.inj done
      exact .inr ⟨port, updateByteCountCurrentWindow_fst ..⟩
  · exact .inl (Except.ok.inj done ▸ rfl)

theorem updateTime_table {result : ControllerStruct × Bool}
    (done : updateTime contStr fd flag now = .ok result) :
    result.1.regEnvStr = contStr.regEnvStr ∨ ∃ port, result.1.regEnvStr =
      contStr.regEnvStr.update port fun data => data.setStartTime flag now := by
  unfold updateTime at done
  split at done
  · cases done
  · exact .inl (Except.ok.inj done ▸ rfl)
  · rename_i port dest
    obtain rfl := Except.ok.inj done
    exact .inr ⟨port, updateTimeVal_fst ..⟩

/-- A proper clock reading keeps all stored times proper. -/
theorem leave_timed (timed : contStr.regEnvStr.All PortStruct.Timed) (reading : now.Reading)
    (done : leave contStr flag fd moved now = .ok next) : next.regEnvStr.All PortStruct.Timed := by
  unfold leave at done
  split at done
  · split at done
    · cases done
    · rename_i middle charged
      have first : middle.regEnvStr.All PortStruct.Timed := by
        rcases doUpdate_table charged with same | ⟨port, written⟩
        · rwa [same]
        · rw [written]
          exact timed.update fun data _ before other => by simpa using before other
      cases ended : updateTime middle fd flag now with
      | error stop => simp [ended, Except.map] at done
      | ok result =>
          rw [ended] at done
          obtain rfl := Except.ok.inj done
          rcases updateTime_table ended with same | ⟨port, written⟩
          · rwa [same]
          · rw [written]
            apply first.update
            intro data _ before other
            rw [PortStruct.startTime_setStartTime]
            split
            · exact reading
            · exact before other
  · exact Except.ok.inj done ▸ timed

end Tables

variable {contStr next : ControllerStruct} {event : Section} {events : List Section}

/-- A section with proper readings keeps all stored times proper. -/
theorem SectionStep.timed (timed : contStr.regEnvStr.All PortStruct.Timed)
    (taken : SectionStep contStr event next) (readings : event.Timed) :
    next.regEnvStr.All PortStruct.Timed := by
  cases socket : event.transfers with
  | false => rwa [taken.env_eq socket]
  | true =>
      cases taken with
      | enter done =>
          rcases enter_table done with same | ⟨port, size, written⟩
          · rwa [same]
          · rw [written]
            exact timed.update fun data _ before other => by simpa using before other
      | leave done => exact leave_timed timed readings done
      | _ => cases socket

/-- Registration stores no time yet. -/
theorem Registered.timed {env : RegisterEnvStruct} (registered : Registered env) :
    env.All PortStruct.Timed := by
  intro port data found flag
  obtain ⟨number, up, down, latency, rfl⟩ := registered.ofLimits found
  rw [PortStruct.startTime_ofLimits]
  exact Timespec.reading_zero

/-- A section delays safely exactly when its clock is kept. -/
theorem SectionStep.delays_iff (timed : contStr.regEnvStr.All PortStruct.Timed)
    (taken : SectionStep contStr event next) (readings : event.Timed) :
    event.Delays contStr ↔ event.ClockKept contStr := by
  cases taken with
  | @enter _ flag fd count now grant done =>
      refine forall_congr' fun port => forall_congr' fun data => forall_congr' fun dest =>
        forall_congr' fun found => ?_
      obtain ⟨other, run, -⟩ := preOp_spec dest found (ssizeT count) flag now
      obtain ⟨-, rfl⟩ := Prod.mk.inj (Except.ok.inj (run.symm.trans done))
      exact PortStruct.safeDelay_iff (timed port data found flag) readings
  | _ => exact Iff.rfl

/-- For every port and all readings the sleep is safe exactly when the clock is not before the last
transfer of a spent direction, and so are the sleeps of every run. -/
theorem delay_safe_iff (contStr : ControllerStruct) :
    (∀ (fd : Int) (port : UInt32) (data : PortStruct) (flag : Bool) (now : Timespec),
      getDestPort contStr.socStr fd = .ok (some port) →
      contStr.regEnvStr.get port = some data → (data.startTime flag).Reading → now.Reading →
      ∃ next window, getPortRemainfByte contStr fd flag now = .ok (next, window) ∧
        (SafeDelay (data.startTime flag) now window.sleepUntil ↔ data.ClockKept flag now)) ∧
    ∀ (env : RegisterEnvStruct) (events : List Section), Registered env →
      (Run (fun contStr event next => (SectionStep contStr event next ∧ event.Timed) ∧
          event.Delays contStr) (initEnv env) events contStr ↔
        Run (fun contStr event next => (SectionStep contStr event next ∧ event.Timed) ∧
          event.ClockKept contStr) (initEnv env) events contStr) := by
  constructor
  · intro fd port data flag now dest found stored current
    obtain ⟨window, -⟩ := portWindow_spec found flag now
    refine ⟨_, _, by rw [getPortRemainfByte, dest], ?_⟩
    rw [window]
    exact PortStruct.safeDelay_iff stored current
  · intro env events registered
    exact Run.guard_iff (fun contStr => contStr.regEnvStr.All PortStruct.Timed) registered.timed
      (fun _ _ _ timed taken => taken.1.delays_iff timed taken.2)
      fun _ _ _ timed taken _ => taken.1.timed timed taken.2

section Client

/-- The first call of the client connection finds its whole budget and does not sleep. -/
theorem clientConnection_delay : ∃ next window,
    getPortRemainfByte (clientConnection 5) 4 true ⟨1, 0⟩ = .ok (next, window) ∧
      SafeDelay .zero ⟨1, 0⟩ window.sleepUntil := by
  obtain ⟨next, window, done, safe⟩ := (delay_safe_iff (clientConnection 5)).1 4 80 _ true
    ⟨1, 0⟩ clientDest clientEntry Timespec.reading_zero ⟨by decide, by decide⟩
  exact ⟨next, window, done, safe.mpr (.inr (.inl (by decide)))⟩

/-- After a transfer of the whole budget, a clock that is set back by fifty seconds requests a sleep of
fifty-one seconds. -/
theorem clientConnection_longDelay :
    ¬∀ (contStr next : ControllerStruct) (fd : Int) (port : UInt32) (data : PortStruct) (flag : Bool)
      (now : Timespec) (window : Window), Reachable contStr →
      getDestPort contStr.socStr fd = .ok (some port) → contStr.regEnvStr.get port = some data →
      (data.startTime flag).Reading → now.Reading →
      getPortRemainfByte contStr fd flag now = .ok (next, window) →
      SafeDelay (data.startTime flag) now window.sleepUntil := by
  intro assumed
  obtain ⟨spent, left, sockets, ports⟩ :=
    leave_spec clientDest clientEntry true (show (0 : Int) < 5000 by decide) ⟨100, 0⟩
  have reachable : Reachable spent := ⟨_, [.connect 4 ⟨afInet, 0, 80⟩, .leave true 4 5000 ⟨100, 0⟩],
    .environment 80 5 5 0, .cons (.connect 4 ⟨afInet, 0, 80⟩) (.cons (.leave left) .start)⟩
  have dest : getDestPort spent.socStr 4 = .ok (some 80) := sockets ▸ clientDest
  obtain ⟨data, entry⟩ : ∃ data, (PortStruct.ofLimits 80 5 5 0).closed true 5000 ⟨100, 0⟩ = data :=
    ⟨_, rfl⟩
  have found : spent.regEnvStr.get 80 = some data := by rw [ports, if_pos rfl, entry]
  have stored : (data.startTime true).Reading := entry ▸ ⟨by decide, by decide⟩
  have current : Timespec.Reading ⟨50, 0⟩ := ⟨by decide, by decide⟩
  have safe := assumed spent _ 4 80 data true ⟨50, 0⟩ _ reachable dest found stored current
    (by rw [getPortRemainfByte, dest])
  rw [(portWindow_spec found true ⟨50, 0⟩).1] at safe
  have kept := (PortStruct.safeDelay_iff stored current).mp safe
  rw [PortStruct.ClockKept, ← entry] at kept
  exact absurd kept (by decide)

end Client

end BandwidthLimiter
