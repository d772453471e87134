import BandwidthLimiter.Foundation.Crowd
import BandwidthLimiter.Limiter.Budget

namespace BandwidthLimiter
open Foundation

/-- A step of data calls on one port in one direction; the second component of a state is the latest
clock reading. A thread sleeps in its `pre_op` with the lock, so the next section starts after it. -/
inductive TimedStep (flag : Bool) (port : UInt32) : Threads × Int → ThreadEvent → Threads × Int →
    Prop where
  | enter {state next : Threads} {clock later : Int} {call : Pending} {now : Timespec}
      {refilled : Bool} (taken : WindowStep flag port state (.enter call now refilled) next)
      (started : clock ≤ now.nanos) (slept : now.nanos + call.grant.slept ≤ later) :
      TimedStep flag port (state, clock) (.enter call now refilled) (next, later)
  | libc {state next : Threads} {clock : Int} {call : Pending} {moved : Int}
      (taken : WindowStep flag port state (.libc call moved) next) :
      TimedStep flag port (state, clock) (.libc call moved) (next, clock)
  | finish {state next : Threads} {clock : Int} {call : Pending} {now : Timespec}
      (taken : WindowStep flag port state (.finish call now) next) (started : clock ≤ now.nanos) :
      TimedStep flag port (state, clock) (.finish call now) (next, now.nanos)

/-- A step with at most `holders` calls under way after it. -/
def CrowdStep (flag : Bool) (port : UInt32) (holders : Nat) (state : Threads × Int)
    (event : ThreadEvent) (next : Threads × Int) : Prop :=
  TimedStep flag port state event next ∧ next.1.calls.length ≤ holders

/-- The charge of an event, with the time that `update_time` stores. -/
def ThreadEvent.charge : ThreadEvent → Option (Int × Int)
  | .finish call now => if 0 < call.uncharged then some (now.nanos, call.uncharged) else none
  | _ => none

theorem charge_snoc (events : List ThreadEvent) (event : ThreadEvent) :
    (events ++ [event]).filterMap ThreadEvent.charge =
      events.filterMap ThreadEvent.charge ++ event.charge.toList := by
  rw [List.filterMap_append, List.filterMap_cons, List.filterMap_nil]
  cases event.charge <;> rfl

/-- The bytes of the calls with recorded times between two clock readings. -/
def chargedBytes (events : List ThreadEvent) (first last : Int) : Int :=
  within (events.filterMap ThreadEvent.charge) first last

/-- The grants of the calls that are under way. -/
def Threads.grants (state : Threads) : List Int := state.calls.map fun call => call.grant.demand

/-- A new window starts a full second after the recent transfer, whatever grants are under way. -/
theorem PortStruct.opened_crowd {data : PortStruct} {flag : Bool} {now : Timespec} {demand : Int}
    {holders : Nat} {grants : List Int} {clock later : Int} {log : List (Int × Int)}
    (crowd : Crowd nanoMult holders (data.limit flag) (data.remaining flag) grants
      (data.startTime flag).nanos clock log)
    (started : clock ≤ now.nanos)
    (slept : now.nanos + Grant.slept ⟨true, demand, data.sleep flag now⟩ ≤ later) :
    Crowd nanoMult holders (data.limit flag) ((data.opened flag now).remaining flag) grants
      (data.startTime flag).nanos later log := by
  have proper : data.limit flag ≠ -1 := by
    have nonneg := crowd.nonneg.trans crowd.bounded
    omega
  have due := opened_due started slept
  have waited := crowd.wait due.1
  cases refills : data.refills flag now with
  | false => simpa [opened, proper, refills] using waited
  | true => simpa [opened, proper, refills] using waited.refill (due.2 refills)

namespace Serving

variable {flag : Bool} {port : UInt32} {limit : Int} {state next : Threads} {data : PortStruct}
  {call : Pending} {now : Timespec} {refilled : Bool}

/-- The grant of a new call. -/
theorem enter_grant (serving : Serving flag port limit state data)
    (taken : WindowStep flag port state (.enter call now refilled) next) :
    next.calls = call :: state.calls ∧
      call.grant = ⟨true, min (ssizeT call.count) (data.offer flag now), data.sleep flag now⟩ := by
  obtain ⟨taken, direction, uses⟩ := taken
  cases taken with
  | enter fits dest entered active waiting unclosed =>
      subst direction uses
      obtain ⟨other, run, -⟩ := preOp_spec dest serving.found (ssizeT call.count) call.flag now
      exact ⟨rfl, (Prod.mk.inj (Except.ok.inj (entered.symm.trans run))).2⟩

/-- A charge stores its time. -/
theorem finish_time (serving : Serving flag port limit state data) {later : PortStruct}
    (taken : ThreadStep state (.finish call now) next)
    (found : next.contStr.regEnvStr.get port = some later) :
    later.startTime flag = if 0 < call.uncharged then now else data.startTime flag := by
  cases taken with
  | @finish contStr _ before after _ moved _ result left =>
      have old := serving.sound call (by simp)
      have owed : call.uncharged = max 0 moved := by simp [Pending.uncharged, result]
      obtain rfl := old.direction
      by_cases positive : 0 < moved
      · obtain ⟨other, run, -, ports⟩ := leave_spec old.dest serving.found call.flag positive now
        obtain rfl := Except.ok.inj (left.symm.trans run)
        rw [ports, if_pos rfl] at found
        rw [← Option.some.inj found, if_pos (by omega)]
        simp
      · rw [leave_idle (Int.not_lt.mp positive)] at left
        obtain rfl := Except.ok.inj left
        rw [← Option.some.inj (serving.found.symm.trans found), if_neg (by omega)]

end Serving

/-- The entry of the port follows the meter of the calls so far and of the grants under way. -/
structure Contended (flag : Bool) (port : UInt32) (holders : Nat) (limit : Int)
    (events : List ThreadEvent) (state : Threads × Int) (data : PortStruct) : Prop where
  serving : Serving flag port limit state.1 data
  crowd : Crowd nanoMult holders limit (data.remaining flag) state.1.grants
    (data.startTime flag).nanos state.2 (events.filterMap ThreadEvent.charge)

section Rate

variable {flag : Bool} {port : UInt32} {holders : Nat} {limit : Int} {events : List ThreadEvent}
  {state next : Threads × Int} {data : PortStruct} {event : ThreadEvent}

/-- Each step of any thread keeps the entry in step with the meter. -/
theorem Contended.step (contended : Contended flag port holders limit events state data)
    (limited : 0 < limit) (taken : CrowdStep flag port holders state event next) :
    ∃ later, Contended flag port holders limit (events ++ [event]) next later := by
  obtain ⟨serving, crowd⟩ := contended
  obtain ⟨taken, room⟩ := taken
  cases taken with
  | @enter before after clock later call now refilled taken started slept =>
      obtain ⟨kept, -⟩ := serving.enter limited taken.1 taken.2.1 taken.2.2
      obtain ⟨calls, granted⟩ := serving.enter_grant taken
      obtain rfl := serving.same
      have opened := PortStruct.opened_crowd crowd started (granted ▸ slept)
      have offered := PortStruct.offer_eq_remaining limited.le now
      have small : call.grant.demand ≤ (data.opened flag now).remaining flag := by
        rw [granted, ← offered]
        exact Int.min_le_right _ _
      have place : before.grants.length < holders := by
        rw [calls, List.length_cons] at room
        rw [Threads.grants, List.length_map]
        exact room
      refine ⟨_, kept, ?_⟩
      have admitted := opened.admitted small place
      rw [charge_snoc]
      simpa [Threads.grants, calls, ThreadEvent.charge] using admitted
  | @libc before after clock call moved taken =>
      obtain ⟨kept, -⟩ := serving.libc taken.1
      have same : after.grants = before.grants := by
        cases taken.1
        simp [Threads.grants, Pending.returned]
      refine ⟨data, kept, ?_⟩
      rw [charge_snoc]
      simpa [same, ThreadEvent.charge] using crowd
  | @finish before after clock call now taken started =>
      obtain ⟨later, kept, left, covered, -⟩ := serving.finish limited taken.1
      have time := serving.finish_time taken.1 kept.found
      obtain ⟨front, back, held, rest⟩ : ∃ front back,
          before.grants = front ++ call.grant.demand :: back ∧ after.grants = front ++ back := by
        cases taken.1
        exact ⟨_, _, List.map_append, List.map_append⟩
      refine ⟨later, kept, ?_⟩
      rw [held] at crowd
      rw [left, time, rest, charge_snoc]
      have positive : 0 ≤ call.uncharged := le_max_left _ _
      by_cases moves : 0 < call.uncharged
      · simpa [ThreadEvent.charge, moves] using crowd.charge started positive covered
      · have idle : call.uncharged = 0 := by omega
        have nonneg := crowd.nonneg
        simpa [ThreadEvent.charge, idle, nonneg] using crowd.release.wait started

/-- Data calls with at most `holders` of them under way at a time transfer at most that many limits
in each second, in every order of their steps. -/
theorem crowdRun_rate {contStr : ControllerStruct} {clock : Int} (reachable : Reachable contStr)
    (found : contStr.regEnvStr.get port = some data) (limited : 0 < data.limit flag)
    (started : (data.startTime flag).nanos ≤ clock)
    (run : Run (CrowdStep flag port holders) (⟨contStr, []⟩, clock) events state)
    {first last : Int} {k : Nat} (short : last - first < k * nanoMult) :
    chargedBytes events first last ≤ k * (holders * data.limit flag) := by
  have metered := reachable.metered port data found
  have bounds := (metered flag).2 limited.le
  obtain ⟨later, contended⟩ := run.history
    (fun events state => ∃ later, Contended flag port holders (data.limit flag) events state later)
    ⟨data, ⟨found, rfl, metered, by simp⟩, .start bounds.1 bounds.2 started holders⟩
    fun _ _ _ _ ⟨_, contended⟩ taken => contended.step limited taken
  apply contended.crowd.paced.rated first last k
  rw [nsmul_eq_mul]
  exact sub_lt_iff_lt_add'.mp short

/-- Two reads are under way at a time, and each of them moves the whole limit. -/
theorem clientReads_rate : ∃ events state,
    Run (CrowdStep true 80 2) (⟨clientConnection 5, []⟩, 0) events state ∧
      chargedBytes events 1000000005 1000000005 ≤ (1 : Nat) * ((2 : Nat) * 5000) := by
  obtain ⟨middle, first, dest, found⟩ := clientRead_enter [] clientDest clientEntry
  obtain ⟨next, second, dest, found⟩ := clientRead_enter [clientRead] dest found
  obtain ⟨last, left, -⟩ := leave_spec dest found true (show 0 < (5000 : Int) by decide) ⟨1, 5⟩
  have finished : ThreadStep ⟨next, [] ++ clientRead.returned 5000 :: [clientRead]⟩
      (.finish (clientRead.returned 5000) ⟨1, 5⟩) ⟨last, [] ++ [clientRead]⟩ := .finish rfl left
  have enters : TimedStep true 80 (⟨clientConnection 5, []⟩, 0) _
      (⟨middle, [clientRead]⟩, 1000000000) := .enter ⟨first, rfl, rfl⟩ (by decide) (by decide)
  have follows : TimedStep true 80 (⟨middle, [clientRead]⟩, 1000000000) _
      (⟨next, [clientRead, clientRead]⟩, 1000000000) :=
    .enter ⟨second, rfl, rfl⟩ (by decide) (by decide)
  have run : Run (CrowdStep true 80 2) (⟨clientConnection 5, []⟩, 0) _ (⟨last, [clientRead]⟩, _) :=
    .cons ⟨enters, by simp⟩ (.cons ⟨follows, by simp⟩
      (.cons ⟨.libc ⟨clientRead_libc next [] [clientRead], trivial⟩, by simp⟩
        (.cons ⟨.finish ⟨finished, trivial⟩ (by decide), by simp⟩ .start)))
  exact ⟨_, _, run, crowdRun_rate (clientConnection_reachable 5).reachable clientEntry (by decide)
    (by decide) run (by decide)⟩

end Rate

section Tight

variable {flag : Bool} {port : UInt32} {holders : Nat} {limit : Int} {fd : Int} {now : Timespec}
  {contStr : ControllerStruct}

/-- A call for a whole limit. -/
def wholeCall (flag : Bool) (port : UInt32) (fd limit : Int) : Pending :=
  ⟨fd, flag, limit.toNat, port, ⟨true, limit, none⟩, none, false⟩

/-- The descriptor is a connection of the port, and the port has its whole budget. -/
structure Whole (flag : Bool) (port : UInt32) (fd limit : Int) (contStr : ControllerStruct) :
    Prop where
  dest : getDestPort contStr.socStr fd = .ok (some port)
  entry : ∃ data, contStr.regEnvStr.get port = some data ∧ data.limit flag = limit ∧
    data.remaining flag = limit

/-- A call enters without a sleep, and it leaves the whole budget to the next one. -/
theorem Whole.enter (whole : Whole flag port fd limit contStr) (limited : 0 < limit)
    (fits : limit < 2 ^ 63) (now : Timespec) (calls : List Pending) :
    ∃ next refilled, WindowStep flag port ⟨contStr, calls⟩
        (.enter (wholeCall flag port fd limit) now refilled)
        ⟨next, wholeCall flag port fd limit :: calls⟩ ∧ Whole flag port fd limit next := by
  obtain ⟨dest, data, found, rfl, full⟩ := whole
  have proper : data.limit flag ≠ -1 := by omega
  have left : ¬data.remaining flag ≤ 0 := by omega
  have offer : data.offer flag now = data.limit flag := by
    rw [PortStruct.offer, if_neg proper, full]
    exact ite_self _
  have awake : data.sleep flag now = none := by
    simp only [PortStruct.sleep, PortStruct.refills, left, decide_false, Bool.or_false]
    cases data.idle flag now <;> simp
  obtain ⟨next, taken, sockets, ports⟩ := enterStep_exists calls
    (wholeCall flag port fd (data.limit flag)) now (show (data.limit flag).toNat < 2 ^ 63 by omega)
    dest found (by
      have count : ssizeT (data.limit flag).toNat = data.limit flag := by
        rw [ssizeT_of_lt (by omega), Int.toNat_of_nonneg limited.le]
      simp [wholeCall, offer, awake, count]) rfl rfl
  refine ⟨next, _, ⟨taken, rfl, rfl⟩, sockets ▸ dest, data.opened flag now, ?_, by simp, ?_⟩
  · exact (ports port).trans (if_pos rfl)
  · rw [← PortStruct.offer_eq_remaining limited.le, offer]

/-- Any number of calls enter in one moment. -/
theorem Whole.enters (whole : Whole flag port fd limit contStr) (limited : 0 < limit)
    (fits : limit < 2 ^ 63) (now : Timespec) {count : Nat} (room : count ≤ holders) :
    ∃ events next, Run (CrowdStep flag port holders) (⟨contStr, []⟩, now.nanos) events
        (⟨next, List.replicate count (wholeCall flag port fd limit)⟩, now.nanos) ∧
      Whole flag port fd limit next ∧ events.filterMap ThreadEvent.charge = [] := by
  induction count with
  | zero => exact ⟨[], contStr, .start, whole, rfl⟩
  | succ count ih =>
      obtain ⟨events, middle, run, kept, silent⟩ := ih (by omega)
      obtain ⟨next, refilled, taken, whole⟩ := kept.enter limited fits now
        (List.replicate count (wholeCall flag port fd limit))
      refine ⟨_, next, .step run ⟨.enter taken le_rfl (by simp [wholeCall, Grant.slept]), ?_⟩, whole,
        by rw [charge_snoc, silent]; rfl⟩
      simpa using room

/-- Each of the calls moves and charges its whole grant in that moment. -/
theorem wholeCalls_finish (dest : getDestPort contStr.socStr fd = .ok (some port))
    {data : PortStruct} (found : contStr.regEnvStr.get port = some data) (limited : 0 < limit)
    (fits : limit < 2 ^ 63) (now : Timespec) {count : Nat} (room : count ≤ holders) :
    ∃ events state, Run (CrowdStep flag port holders)
        (⟨contStr, List.replicate count (wholeCall flag port fd limit)⟩, now.nanos) events state ∧
      events.filterMap ThreadEvent.charge = List.replicate count (now.nanos, limit) := by
  induction count generalizing contStr data with
  | zero => exact ⟨[], _, .start, rfl⟩
  | succ count ih =>
      obtain ⟨next, left, sockets, ports⟩ := leave_spec dest found flag limited now
      let call := wholeCall flag port fd limit
      let rest := List.replicate count call
      have length : limit ≤ libcLength call.count call.grant := by
        simp only [libcLength, call, wholeCall, if_true]
        rw [sizeT_of_nonneg limited.le (by omega), Int.toNat_of_nonneg limited.le]
      have moved : ThreadStep ⟨contStr, [] ++ call :: rest⟩ (.libc call limit)
          ⟨contStr, [] ++ call.returned limit :: rest⟩ := .libc rfl length
      have finished : ThreadStep ⟨contStr, [] ++ call.returned limit :: rest⟩
          (.finish (call.returned limit) now) ⟨next, [] ++ rest⟩ := .finish rfl left
      obtain ⟨events, state, run, charged⟩ :=
        ih (sockets ▸ dest) ((ports port).trans (if_pos rfl)) (by omega)
      have positive : 0 < (call.returned limit).uncharged := lt_max_of_lt_right limited
      have amount : (call.returned limit).uncharged = limit := max_eq_right limited.le
      have charge : (ThreadEvent.finish (call.returned limit) now).charge =
          some (now.nanos, limit) := by rw [ThreadEvent.charge, if_pos positive, amount]
      refine ⟨.libc call limit :: .finish (call.returned limit) now :: events, state,
        .cons ⟨.libc ⟨moved, trivial⟩, by simpa [rest] using room⟩
          (.cons ⟨.finish ⟨finished, trivial⟩ le_rfl, by simp [rest]; omega⟩ run), ?_⟩
      rw [List.filterMap_cons_none rfl, List.filterMap_cons_some charge, charged,
        List.replicate_succ]

/-- Any number of calls under way at a time transfer that many limits in one moment. -/
theorem crowdRun_tight {data : PortStruct}
    (dest : getDestPort contStr.socStr fd = .ok (some port))
    (found : contStr.regEnvStr.get port = some data) (limited : 0 < data.limit flag)
    (fits : data.limit flag < 2 ^ 63) (full : data.remaining flag = data.limit flag)
    (now : Timespec) (holders : Nat) :
    ∃ events state, Run (CrowdStep flag port holders) (⟨contStr, []⟩, now.nanos) events state ∧
      chargedBytes events now.nanos now.nanos = holders * data.limit flag := by
  have whole : Whole flag port fd (data.limit flag) contStr := ⟨dest, data, found, rfl, full⟩
  obtain ⟨enters, middle, first, kept, silent⟩ := whole.enters limited fits now le_rfl
  obtain ⟨dest, entry, found, -⟩ := kept
  obtain ⟨leaves, state, second, charged⟩ := wholeCalls_finish dest found limited fits now le_rfl
  refine ⟨enters ++ leaves, state, first.append second, ?_⟩
  rw [chargedBytes, List.filterMap_append, silent, charged]
  simp [within]

/-- Three reads of a new connection transfer three limits. -/
theorem clientReads_tight : ∃ events state,
    Run (CrowdStep true 80 3) (⟨clientConnection 5, []⟩, 1000000000) events state ∧
      chargedBytes events 1000000000 1000000000 = (3 : Nat) * 5000 :=
  crowdRun_tight clientDest clientEntry (by decide) (by decide) (by decide) ⟨1, 0⟩ 3

end Tight

end BandwidthLimiter
