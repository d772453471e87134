import BandwidthLimiter.Limiter.Threads

namespace BandwidthLimiter
open Foundation

/-- A call of a client that always has enough bytes: libc moves the whole length that it is given, and
neither the client nor libc adds more than the slack to the sleep. -/
structure Saturated (flag : Bool) (limit slack : Int) (state : ControllerStruct × Int) (call : Call) :
    Prop where
  demand : limit ≤ call.count
  prompt : call.now.nanos ≤ state.2 + slack
  full : ∀ middle grant, enter state.1 flag call.fd call.count call.now = .ok (middle, grant) →
    call.moved = libcLength call.count grant ∧
      call.later.nanos ≤ call.now.nanos + grant.slept + slack

/-- A step of a saturating client. -/
def SaturatedStep (flag : Bool) (port : UInt32) (limit slack : Int) (state : ControllerStruct × Int)
    (call : Call) (next : ControllerStruct × Int) : Prop :=
  CallStep flag port state call next ∧ Saturated flag limit slack state call

/-- The longest time between the ends of two calls of a saturating client. -/
def callPeriod (slack : Int) : Int := max nanoMult slack + slack

/-- A call moves the whole limit and ends at most a period after the call before it. -/
def Call.Succeeds (limit slack : Int) (before call : Call) : Prop :=
  call.moved = limit ∧ call.later.nanos ≤ before.later.nanos + callPeriod slack

/-- The direction is spent, and its time is that of the last call. -/
structure Spent (flag : Bool) (port : UInt32) (limit : Int) (state : ControllerStruct × Int)
    (data : PortStruct) : Prop where
  found : state.1.regEnvStr.get port = some data
  same : data.limit flag = limit
  empty : data.remaining flag = 0
  time : (data.startTime flag).nanos = state.2

section Saturated

variable {flag : Bool} {port : UInt32} {limit slack : Int} {call first : Call} {calls : List Call}
  {state next : ControllerStruct × Int} {data : PortStruct} {now : Timespec}

/-- A proper limit offers at least a byte and at most the limit. -/
theorem PortStruct.Metered.offer_bounds (metered : data.Metered) (positive : 0 < data.limit flag)
    (now : Timespec) : 0 < data.offer flag now ∧ data.offer flag now ≤ data.limit flag := by
  have proper : data.limit flag ≠ -1 := by omega
  have bounds := (metered flag).2 positive.le
  rw [PortStruct.offer, if_neg proper]
  cases refills : data.refills flag now with
  | true => simpa using positive
  | false =>
      simp only [PortStruct.refills, Bool.and_eq_false_iff, decide_eq_false_iff_not, ne_eq,
        Decidable.not_not, proper, false_or, Bool.or_eq_false_iff] at refills
      simp only [Bool.false_eq_true, if_false]
      omega

/-- A spent direction offers its whole limit. -/
theorem Spent.offer_eq (spent : Spent flag port limit state data) (positive : 0 < limit)
    (now : Timespec) : data.offer flag now = limit := by
  have proper : data.limit flag ≠ -1 := by
    have same := spent.same
    omega
  have refills : data.refills flag now = true := by
    simp [PortStruct.refills, proper, spent.empty]
  rw [PortStruct.offer, if_neg proper, if_pos refills, spent.same]

/-- The sleep in a spent direction ends a second after the last call. -/
theorem Spent.slept_le (spent : Spent flag port limit state data) (demand : Int)
    (prompt : now.nanos ≤ state.2 + slack) :
    now.nanos + Grant.slept ⟨true, demand, data.sleep flag now⟩ ≤ state.2 + max nanoMult slack := by
  cases sleeps : data.refills flag now && !data.idle flag now with
  | true =>
      simp only [Bool.and_eq_true, Bool.not_eq_true'] at sleeps
      rw [PortStruct.sleep_slept sleeps.1 sleeps.2, PortStruct.timeDifference_eq, spent.time]
      have least := le_max_left nanoMult slack
      omega
  | false =>
      rw [PortStruct.sleep_none sleeps]
      have least := le_max_right nanoMult slack
      omega

/-- A saturating call moves the whole offer, and it leaves the direction spent. -/
theorem saturated_step (found : state.1.regEnvStr.get port = some data)
    (least : 0 < data.offer flag call.now) (most : data.offer flag call.now ≤ data.limit flag)
    (taken : SaturatedStep flag port (data.limit flag) slack state call next) :
    call.moved = data.offer flag call.now ∧ next.2 = call.later.nanos ∧
      (∃ demand, call.later.nanos ≤
        call.now.nanos + Grant.slept ⟨true, demand, data.sleep flag call.now⟩ + slack) ∧
      ∃ later, Spent flag port (data.limit flag) next later := by
  obtain ⟨called, demand, -, full⟩ := taken
  cases called with
  | @call contStr middle last clock call grant dest fits started entered slept bounded done =>
      obtain ⟨moved, soon⟩ := full middle grant entered
      obtain ⟨other, run, -⟩ := preOp_spec dest found (ssizeT call.count) flag call.now
      obtain ⟨-, rfl⟩ := Prod.mk.inj (Except.ok.inj (entered.symm.trans run))
      have length := libcLength_eq_min least.le fits (data.sleep flag call.now)
      have whole : call.moved = data.offer flag call.now := by
        rw [moved, length]
        exact min_eq_right (most.trans demand)
      have after := transfer_spec dest found done
      rw [whole, if_pos least] at after
      have offered := PortStruct.offer_eq_remaining (least.trans_le most).le call.now
      refine ⟨whole, rfl, ⟨_, soon⟩, _, after, by simp, ?_, by simp⟩
      rw [PortStruct.remaining_closed, if_pos rfl, ← offered, sub_self, max_self]

/-- A call in a spent direction moves the whole limit within a period. -/
theorem Spent.step (spent : Spent flag port limit state data) (positive : 0 < limit)
    (taken : SaturatedStep flag port limit slack state call next) :
    call.moved = limit ∧ next.2 ≤ state.2 + callPeriod slack ∧
      ∃ later, Spent flag port limit next later := by
  have prompt := taken.2.prompt
  have offer := spent.offer_eq positive call.now
  obtain ⟨found, rfl, -, -⟩ := id spent
  obtain ⟨moved, ends, ⟨demand, soon⟩, later, after⟩ :=
    saturated_step found (offer ▸ positive) offer.le taken
  refine ⟨moved.trans offer, ?_, later, after⟩
  have slept := spent.slept_le demand prompt
  rw [ends, callPeriod]
  omega

/-- Every call of a run in a spent direction succeeds the one before, so the amounts and the times add
up. -/
theorem Spent.run (spent : Spent flag port limit state data) (positive : 0 < limit)
    (ends : state.2 = first.later.nanos)
    (run : Run (SaturatedStep flag port limit slack) state calls next) :
    (first :: calls).IsChain (Call.Succeeds limit slack) ∧
      (calls.map Call.moved).sum = calls.length * limit ∧
      next.2 ≤ first.later.nanos + calls.length * callPeriod slack := by
  induction calls generalizing state data first with
  | nil =>
      obtain rfl := run.nil_eq
      exact ⟨.singleton first, by simp, by simp [ends]⟩
  | cons call calls ih =>
      obtain ⟨middle, taken, rest⟩ := run.uncons
      obtain ⟨amount, period, later, after⟩ := spent.step positive taken
      have same : middle.2 = call.later.nanos := by
        cases taken.1
        rfl
      obtain ⟨chain, total, time⟩ := ih after same rest
      have soon : call.later.nanos ≤ first.later.nanos + callPeriod slack := by
        rwa [← same, ← ends]
      refine ⟨.cons_cons ⟨amount, soon⟩ chain, ?_, ?_⟩
      · rw [List.map_cons, List.sum_cons, total, amount, List.length_cons]
        push_cast
        linarith
      · rw [List.length_cons]
        push_cast
        linarith

/-- Behind its first call, a saturating client moves the whole limit in each call, and each call ends
at most a period after the one before. -/
theorem saturatedRun_throughput {contStr : ControllerStruct} {clock : Int}
    (reachable : Reachable contStr) (found : contStr.regEnvStr.get port = some data)
    (positive : 0 < data.limit flag)
    (run : Run (SaturatedStep flag port (data.limit flag) slack) (contStr, clock) (first :: calls)
      state) : 0 < first.moved ∧
      (first :: calls).IsChain (Call.Succeeds (data.limit flag) slack) ∧
      (calls.map Call.moved).sum = calls.length * data.limit flag ∧
      state.2 ≤ first.later.nanos + calls.length * callPeriod slack := by
  obtain ⟨middle, taken, rest⟩ := run.uncons
  obtain ⟨least, most⟩ := (reachable.metered port data found).offer_bounds positive first.now
  obtain ⟨moved, ends, -, later, spent⟩ := saturated_step found least most taken
  exact ⟨moved ▸ least, spent.run positive ends rest⟩

/-- A call on a connection of the port saturates it under conditions on its entry alone. -/
theorem saturated_of {contStr : ControllerStruct} {clock : Int}
    (dest : getDestPort contStr.socStr call.fd = .ok (some port))
    (found : contStr.regEnvStr.get port = some data) (demand : limit ≤ call.count)
    (prompt : call.now.nanos ≤ clock + slack)
    (whole : call.moved = sizeT (min (ssizeT call.count) (data.offer flag call.now)))
    (soon : call.later.nanos ≤
      call.now.nanos + Grant.slept ⟨true, 0, data.sleep flag call.now⟩ + slack) :
    Saturated flag limit slack (contStr, clock) call where
  demand := demand
  prompt := prompt
  full middle grant entered := by
    obtain ⟨other, run, -⟩ := preOp_spec dest found (ssizeT call.count) flag call.now
    obtain ⟨-, rfl⟩ := Prod.mk.inj (Except.ok.inj (entered.symm.trans run))
    exact ⟨whole, soon⟩

/-- The first call takes the whole budget, and the second one waits for the next window. -/
def saturatedCalls : Call × Call :=
  (⟨4, 9000, ⟨1, 0⟩, 5000, ⟨1, 5⟩⟩, ⟨4, 9000, ⟨1, 10⟩, 5000, ⟨2, 5⟩⟩)

set_option maxRecDepth 4000 in
theorem saturatedCalls_throughput :
    [saturatedCalls.1, saturatedCalls.2].IsChain (Call.Succeeds 5000 1000000000) ∧
    ([saturatedCalls.2].map Call.moved).sum = (1 : Nat) * 5000 ∧
    (2000000005 : Int) ≤ 1000000005 + (1 : Nat) * callPeriod 1000000000 := by
  have dest : getDestPort (clientConnection 5).socStr 4 = .ok (some 80) := clientDest
  obtain ⟨middle, first, sockets, entry⟩ := callStep_exists (clientConnection 5) 0 true
    saturatedCalls.1 dest clientEntry (by decide) (by decide) (by decide) (by decide)
  obtain ⟨last, second, -⟩ := callStep_exists middle 1000000005 true saturatedCalls.2
    (sockets ▸ dest) entry (by decide) (by decide) (by decide) (by decide)
  have run : Run (SaturatedStep true 80 5000 1000000000) (clientConnection 5, 0)
      [saturatedCalls.1, saturatedCalls.2] (last, 2000000005) :=
    .cons ⟨first, saturated_of dest clientEntry (by decide) (by decide) (by decide) (by decide)⟩
      (.cons ⟨second, saturated_of (sockets ▸ dest) entry (by decide) (by decide) (by decide)
        (by decide)⟩ .start)
  obtain ⟨-, chain, total, time⟩ := saturatedRun_throughput (clientConnection_reachable 5).reachable
    clientEntry (by decide) run
  exact ⟨chain, total, time⟩

end Saturated

end BandwidthLimiter
