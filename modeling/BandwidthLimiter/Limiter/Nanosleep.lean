import BandwidthLimiter.Foundation.Fuel
import BandwidthLimiter.Limiter.Rate

namespace BandwidthLimiter
open Foundation

/-- The numbers in `errno` that the loop tells apart. -/
inductive Errno where
  | eintr
  | efault
  | einval
  | other
  deriving DecidableEq, Repr

/-- The outcome of a call of `nanosleep`, with the remaining time when the call writes one. -/
structure Nap (S : Type) where
  retval : Int
  errno : Errno
  remain : Option Timespec
  host : S

section Loop

variable {S : Type} (nanosleep : S → Timespec → Nap S)

/-- One round of the loop, with the request and the variable for the remaining time. -/
def nanosleepBody (state : S × Timespec × Timespec) : (S × Timespec × Timespec) ⊕ (S × Int) :=
  let (host, treq, tret) := state
  let nap := nanosleep host treq
  let tret := nap.remain.getD tret
  if nap.retval = -1 then
    match nap.errno with
    | .efault | .einval => .inr (nap.host, nap.retval)
    -- The next request is the remaining time, written or not.
    | .eintr | .other => .inl (nap.host, tret, tret)
  else .inr (nap.host, nap.retval)

/-- The function `do_complete_nanosleep`; `junk` is the variable for the remaining time at first. -/
def doCompleteNanosleep (fuel : Nat) (host : S) (sleeptime junk : Timespec) : Option (S × Int) :=
  whileLoop (nanosleepBody nanosleep) fuel (host, sleeptime, junk)

/-- The calls of `nanosleep` in turn: each one asks for the time that the one before it has left. -/
def napAt : Nat → S → Timespec → Nap S
  | 0, host, treq => nanosleep host treq
  | n + 1, host, treq =>
      napAt n (nanosleep host treq).host ((nanosleep host treq).remain.getD treq)

end Loop

/-- A request that `nanosleep` accepts. -/
structure Timespec.Proper (ts : Timespec) : Prop where
  sec : 0 ≤ ts.tvSec
  nsec : 0 ≤ ts.tvNsec ∧ ts.tvNsec < nanoMult

/-- The documented calls: a proper request sleeps for its time or is interrupted with the remaining
time, and any other one is refused at once. -/
structure Sleeps {S : Type} (nanosleep : S → Timespec → Nap S) (time : S → Int) : Prop where
  complete : ∀ host treq, treq.Proper → (nanosleep host treq).retval = 0 →
    time host + treq.nanos ≤ time (nanosleep host treq).host
  interrupted : ∀ host treq, treq.Proper → (nanosleep host treq).retval ≠ 0 →
    (nanosleep host treq).retval = -1 ∧ (nanosleep host treq).errno = .eintr ∧
      ∃ left, (nanosleep host treq).remain = some left ∧ left.Proper ∧
        time host + treq.nanos ≤ time (nanosleep host treq).host + left.nanos
  refused : ∀ host treq, ¬treq.Proper →
    (nanosleep host treq).retval = -1 ∧ (nanosleep host treq).errno = .einval

section Complete

variable {S : Type} {nanosleep : S → Timespec → Nap S} {time : S → Int} {fuel : Nat} {host last : S}
  {sleeptime junk : Timespec} {retval : Int}

/-- What is slept and what is requested next add up to the whole time in every round. -/
theorem nanosleepBody_next (sleeps : Sleeps nanosleep time) {state next : S × Timespec × Timespec}
    {due : Int} (proper : state.2.1.Proper) (owed : due ≤ time state.1 + state.2.1.nanos)
    (taken : nanosleepBody nanosleep state = .inl next) :
    next.2.1.Proper ∧ due ≤ time next.1 + next.2.1.nanos := by
  obtain ⟨host, treq, tret⟩ := state
  by_cases done : (nanosleep host treq).retval = 0
  · simp [nanosleepBody, done] at taken
  · obtain ⟨failed, errno, left, remains, fits, kept⟩ := sleeps.interrupted host treq proper done
    simp only [nanosleepBody, failed, errno, remains, if_true, Option.getD_some, Sum.inl.injEq] at taken
    subst taken
    exact ⟨fits, owed.trans kept⟩

theorem nanosleepBody_stop (sleeps : Sleeps nanosleep time) {state : S × Timespec × Timespec}
    {due : Int} (proper : state.2.1.Proper) (owed : due ≤ time state.1 + state.2.1.nanos)
    (taken : nanosleepBody nanosleep state = .inr (last, retval)) : retval = 0 ∧ due ≤ time last := by
  obtain ⟨host, treq, tret⟩ := state
  by_cases done : (nanosleep host treq).retval = 0
  · have slept := sleeps.complete host treq proper done
    simp only [nanosleepBody, done, Int.reduceNeg, show (0 : Int) ≠ -1 by decide, if_false,
      Sum.inr.injEq, Prod.mk.injEq] at taken
    obtain ⟨rfl, rfl⟩ := taken
    exact ⟨rfl, owed.trans slept⟩
  · obtain ⟨failed, errno, -⟩ := sleeps.interrupted host treq proper done
    simp [nanosleepBody, failed, errno] at taken

/-- However often signals interrupt it, a sleep that returns has lasted for the whole request. -/
theorem nanosleep_complete (sleeps : Sleeps nanosleep time) (proper : sleeptime.Proper)
    (returned : doCompleteNanosleep nanosleep fuel host sleeptime junk = some (last, retval)) :
    retval = 0 ∧ time host + sleeptime.nanos ≤ time last := by
  obtain ⟨n, state, -, behind, stop⟩ := whileLoop_eq_some.mp returned
  obtain ⟨fits, owed⟩ := rounds_invariant
    (fun state => state.2.1.Proper ∧ time host + sleeptime.nanos ≤ time state.1 + state.2.1.nanos)
    ⟨proper, le_rfl⟩
    (fun _ _ ⟨fits, owed⟩ taken => nanosleepBody_next sleeps fits owed taken) behind
  exact nanosleepBody_stop sleeps fits owed stop

/-- A sleep returns in some rounds exactly when one of so many calls is not interrupted. -/
theorem nanosleep_returns_iff (sleeps : Sleeps nanosleep time) (proper : sleeptime.Proper) :
    (∃ result, doCompleteNanosleep nanosleep fuel host sleeptime junk = some result) ↔
      ∃ n < fuel, (napAt nanosleep n host sleeptime).retval = 0 := by
  induction fuel generalizing host sleeptime junk with
  | zero => simp [doCompleteNanosleep, whileLoop]
  | succ fuel ih =>
      by_cases done : (nanosleep host sleeptime).retval = 0
      · have stop : nanosleepBody nanosleep (host, sleeptime, junk) =
            .inr ((nanosleep host sleeptime).host, 0) := by
          simp [nanosleepBody, done]
        exact ⟨fun _ => ⟨0, Nat.succ_pos fuel, done⟩, fun _ => ⟨_, whileLoop_stop stop⟩⟩
      · obtain ⟨failed, errno, left, remains, fits, -⟩ := sleeps.interrupted host sleeptime proper done
        have round : nanosleepBody nanosleep (host, sleeptime, junk) =
            .inl ((nanosleep host sleeptime).host, left, left) := by
          simp [nanosleepBody, failed, errno, remains]
        have later (n : Nat) : napAt nanosleep (n + 1) host sleeptime =
            napAt nanosleep n (nanosleep host sleeptime).host left := by
          rw [napAt, remains, Option.getD_some]
        rw [doCompleteNanosleep, whileLoop_next round]
        apply (ih fits).trans
        constructor
        · rintro ⟨n, few, slept⟩
          exact ⟨n + 1, by omega, later n ▸ slept⟩
        · rintro ⟨n, few, slept⟩
          cases n with
          | zero => exact absurd slept done
          | succ n => exact ⟨n, by omega, later n ▸ slept⟩

end Complete

section Request

variable {data : PortStruct} {flag : Bool} {now request : Timespec}

/-- The request of `pre_op` is proper, and it ends a second after the last transfer. -/
theorem PortStruct.sleep_proper (asked : data.sleep flag now = some request) :
    request.Proper ∧ now.nanos + request.nanos = (data.startTime flag).nanos + nanoMult := by
  unfold PortStruct.sleep at asked
  split at asked
  · rename_i sleeps
    obtain rfl := Option.some.inj asked
    simp only [PortStruct.idle, timeDifference_eq, Bool.and_eq_true, Bool.not_eq_true',
      decide_eq_false_iff_not, gt_iff_lt, not_lt] at sleeps
    have nonneg : 0 ≤ nanoMult - timeDifference (data.startTime flag) now := by
      rw [timeDifference_eq]
      omega
    have total : Timespec.nanos
        ⟨(nanoMult - timeDifference (data.startTime flag) now).tdiv nanoMult,
          (nanoMult - timeDifference (data.startTime flag) now).tmod nanoMult⟩ =
        nanoMult - timeDifference (data.startTime flag) now := by
      rw [Timespec.nanos, mul_comm]
      exact Int.mul_tdiv_add_tmod ..
    have positive : 0 < nanoMult := by decide
    refine ⟨⟨Int.tdiv_nonneg nonneg positive.le, Int.tmod_nonneg _ nonneg,
      Int.tmod_lt_of_pos _ positive⟩, ?_⟩
    rw [total, timeDifference_eq]
    omega
  · cases asked

/-- A data call that `pre_op` lets sleep goes on a full second after the last transfer of its port,
however often signals interrupt the sleep; the sleep returns as soon as a call of `nanosleep` is not
interrupted, and only then. -/
theorem preOp_sleeps {S : Type} {nanosleep : S → Timespec → Nap S} {time : S → Int} {host : S}
    {contStr next : ControllerStruct} {fd demand : Int} {port : UInt32} {grant : Grant}
    (sleeps : Sleeps nanosleep time) (junk : Timespec) (dest : getDestPort contStr.socStr fd = .ok (some port))
    (found : contStr.regEnvStr.get port = some data)
    (entered : preOp contStr fd demand flag now = .ok (next, grant))
    (asked : grant.sleepUntil = some request) (clock : now.nanos ≤ time host) :
    (∀ fuel last retval, doCompleteNanosleep nanosleep fuel host request junk = some (last, retval) →
      retval = 0 ∧ (data.startTime flag).nanos + nanoMult ≤ time last ∧
        now.nanos + grant.slept ≤ time last) ∧
    ∀ fuel, (∃ result, doCompleteNanosleep nanosleep fuel host request junk = some result) ↔
      ∃ n < fuel, (napAt nanosleep n host request).retval = 0 := by
  obtain ⟨other, run, -⟩ := preOp_spec dest found demand flag now
  obtain ⟨-, rfl⟩ := Prod.mk.inj (Except.ok.inj (entered.symm.trans run))
  obtain ⟨proper, ends⟩ := PortStruct.sleep_proper asked
  refine ⟨fun fuel last retval returned => ?_, fun fuel => nanosleep_returns_iff sleeps proper⟩
  obtain ⟨success, slept⟩ := nanosleep_complete sleeps proper returned
  have asks : Grant.slept ⟨true, min demand (data.offer flag now), data.sleep flag now⟩ =
      request.nanos := by
    rw [Grant.slept, show data.sleep flag now = some request from asked]
    rfl
  rw [asks]
  omega

/-- A host whose clock is the first number; the second one counts the signals that are still to come. -/
def interruptedNanosleep (host : Int × Nat) (treq : Timespec) : Nap (Int × Nat) :=
  if 0 ≤ treq.tvSec ∧ 0 ≤ treq.tvNsec ∧ treq.tvNsec < nanoMult then
    match host with
    | (time, 0) => ⟨0, .other, none, (time + treq.nanos, 0)⟩
    | (time, signals + 1) => ⟨-1, .eintr, some treq, (time, signals)⟩
  else ⟨-1, .einval, none, host⟩

theorem interruptedNanosleep_sleeps : Sleeps interruptedNanosleep Prod.fst where
  complete host treq proper done := by
    have accepted := And.intro proper.sec proper.nsec
    obtain ⟨time, signals⟩ := host
    cases signals with
    | zero => simp [interruptedNanosleep, accepted]
    | succ signals => simp [interruptedNanosleep, accepted] at done
  interrupted host treq proper done := by
    have accepted := And.intro proper.sec proper.nsec
    obtain ⟨time, signals⟩ := host
    cases signals with
    | zero => simp [interruptedNanosleep, accepted] at done
    | succ signals =>
        refine ⟨?_, ?_, treq, ?_, proper, ?_⟩ <;> simp [interruptedNanosleep, accepted]
  refused host treq improper := by
    have refused : ¬(0 ≤ treq.tvSec ∧ 0 ≤ treq.tvNsec ∧ treq.tvNsec < nanoMult) :=
      fun accepted => improper ⟨accepted.1, accepted.2⟩
    simp [interruptedNanosleep, refused]

set_option maxRecDepth 4000 in
/-- A read of a spent direction sleeps to the end of its second through two signals. -/
theorem clientConnection_sleeps : ∃ next last, preOp (clientConnection 0) 4 10 true ⟨0, 5⟩ =
      .ok (next, ⟨true, 0, some ⟨0, 999999995⟩⟩) ∧
    doCompleteNanosleep interruptedNanosleep 3 (5, 2) ⟨0, 999999995⟩ .zero = some (last, 0) ∧
    1000000000 ≤ last.1 := by
  have dest : getDestPort (clientConnection 0).socStr 4 = .ok (some 80) := by decide
  have found : (clientConnection 0).regEnvStr.get 80 = some (.ofLimits 80 0 0 0) := by decide
  obtain ⟨next, entered, -⟩ := preOp_spec dest found 10 true ⟨0, 5⟩
  obtain ⟨slept, returns⟩ := preOp_sleeps interruptedNanosleep_sleeps .zero dest found entered
    (show _ = some ⟨0, 999999995⟩ by decide) (show _ ≤ Prod.fst ((5, 2) : Int × Nat) by decide)
  obtain ⟨⟨last, retval⟩, returned⟩ := (returns 3).mpr ⟨2, by decide, rfl⟩
  obtain ⟨rfl, ends, -⟩ := slept 3 last retval returned
  exact ⟨next, last, entered, returned, ends⟩

end Request

end BandwidthLimiter
