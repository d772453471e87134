import BandwidthLimiter.Foundation.Meter
import BandwidthLimiter.Limiter.Request

namespace BandwidthLimiter
open Foundation

/-- The nanoseconds that a grant asks the caller to sleep. -/
def Grant.slept (grant : Grant) : Int := (grant.sleepUntil.map Timespec.nanos).getD 0

/-- One data call: its arguments, the clock reading in `pre_op`, the libc result and the clock
reading at its end. -/
structure Call where
  fd : Int
  count : Nat
  now : Timespec
  moved : Int
  later : Timespec
  deriving DecidableEq, Repr

/-- A completed call on a descriptor of the port; the second component of a state is the latest
clock reading. -/
inductive CallStep (flag : Bool) (port : UInt32) :
    ControllerStruct × Int → Call → ControllerStruct × Int → Prop where
  | call {contStr middle next : ControllerStruct} {clock : Int} {call : Call} {grant : Grant}
      (dest : getDestPort contStr.socStr call.fd = .ok (some port))
      (fits : call.count < 2 ^ 63)
      (started : clock ≤ call.now.nanos)
      (entered : enter contStr flag call.fd call.count call.now = .ok (middle, grant))
      (slept : call.now.nanos + grant.slept ≤ call.later.nanos)
      (bounded : call.moved ≤ libcLength call.count grant)
      (done : transfer contStr flag call.fd call.count call.now
        (fun _ => (call.moved, call.later)) = .ok (next, call.moved)) :
      CallStep flag port (contStr, clock) call (next, call.later.nanos)

/-- The charges of the calls that moved bytes, with the times that `update_time` stores. -/
def charges (calls : List Call) : List (Int × Int) :=
  (calls.filter fun call => 0 < call.moved).map fun call => (call.later.nanos, call.moved)

/-- The bytes of the calls with recorded times between two clock readings. -/
def transferred (calls : List Call) (first last : Int) : Int := within (charges calls) first last

theorem charges_snoc (calls : List Call) (call : Call) : charges (calls ++ [call]) =
    charges calls ++ if 0 < call.moved then [(call.later.nanos, call.moved)] else [] := by
  unfold charges
  rw [List.filter_append, List.map_append]
  congr 1
  split <;> simp_all

namespace PortStruct

variable {data : PortStruct} {flag : Bool} {now : Timespec} {demand : Int}

/-- The requested sleep lasts to the end of a second after the recent transfer. -/
theorem sleep_slept (refills : data.refills flag now = true) (active : data.idle flag now = false) :
    Grant.slept ⟨true, demand, data.sleep flag now⟩ =
      nanoMult - timeDifference (data.startTime flag) now := by
  simp only [Grant.slept, PortStruct.sleep, refills, active, Bool.not_false, Bool.and_self, if_true,
    Option.map_some, Option.getD_some, Timespec.nanos]
  rw [mul_comm]
  exact Int.mul_tdiv_add_tmod ..

theorem sleep_none (awake : (data.refills flag now && !data.idle flag now) = false) :
    Grant.slept ⟨true, demand, data.sleep flag now⟩ = 0 := by
  simp [Grant.slept, PortStruct.sleep, awake]

theorem timeDifference_eq (first last : Timespec) :
    timeDifference first last = last.nanos - first.nanos := rfl

/-- A new window starts a full second after the recent transfer. -/
theorem opened_due {clock later : Int} (started : clock ≤ now.nanos)
    (slept : now.nanos + Grant.slept ⟨true, demand, data.sleep flag now⟩ ≤ later) :
    clock ≤ later ∧
      (data.refills flag now = true → (data.startTime flag).nanos + nanoMult ≤ later) := by
  cases refills : data.refills flag now with
  | false =>
      rw [sleep_none (by simp [refills]), add_zero] at slept
      exact ⟨started.trans slept, nofun⟩
  | true =>
      have due : now.nanos ≤ later ∧ (data.startTime flag).nanos + nanoMult ≤ later := by
        cases idle : data.idle flag now with
        | true =>
            rw [sleep_none (by simp [idle]), add_zero] at slept
            have passed := of_decide_eq_true idle
            rw [timeDifference_eq] at passed
            omega
        | false =>
            have short := of_decide_eq_false idle
            rw [sleep_slept refills idle] at slept
            rw [timeDifference_eq] at slept short
            omega
      exact ⟨started.trans due.1, fun _ => due.2⟩

/-- The entry stays paced when a new window starts. -/
theorem opened_paced {clock later : Int} {log : List (Int × Int)}
    (paced : Paced nanoMult (data.limit flag) (data.remaining flag)
      (data.startTime flag).nanos clock log)
    (started : clock ≤ now.nanos)
    (slept : now.nanos + Grant.slept ⟨true, demand, data.sleep flag now⟩ ≤ later) :
    Paced nanoMult (data.limit flag) ((data.opened flag now).remaining flag)
      (data.startTime flag).nanos later log := by
  have proper : data.limit flag ≠ -1 := by
    have nonneg := paced.nonneg.trans paced.bounded
    omega
  have due := opened_due started slept
  have waited := paced.wait due.1
  cases refills : data.refills flag now with
  | false => simpa [opened, proper, refills] using waited
  | true => simpa [opened, proper, refills] using waited.refill (due.2 refills)

end PortStruct

section CallEffect

variable {contStr next : ControllerStruct} {fd : Int} {port : UInt32} {data : PortStruct}
  {flag : Bool} {count : Nat} {now later : Timespec} {moved : Int}

/-- The effect of a whole data call on the port table. -/
theorem transfer_ports (dest : getDestPort contStr.socStr fd = .ok (some port))
    (found : contStr.regEnvStr.get port = some data)
    (done : transfer contStr flag fd count now (fun _ => (moved, later)) = .ok (next, moved))
    (q : UInt32) : next.regEnvStr.get q =
      if q = port then some (if 0 < moved then (data.opened flag now).closed flag moved later
        else data.opened flag now)
      else contStr.regEnvStr.get q := by
  obtain ⟨middle, entered, sockets, ports⟩ := preOp_spec dest found (ssizeT count) flag now
  have opened : middle.regEnvStr.get port = some (data.opened flag now) := by rw [ports, if_pos rfl]
  have still : getDestPort middle.socStr fd = .ok (some port) := sockets.symm ▸ dest
  simp only [transfer, enter, entered, if_true] at done
  by_cases positive : 0 < moved
  · obtain ⟨last, left, -, after⟩ := leave_spec still opened flag positive later
    simp only [left, Except.map, Except.ok.injEq, Prod.mk.injEq, and_true] at done
    rw [← done, after, if_pos positive, ports]
    split <;> rfl
  · simp only [leave_idle (Int.not_lt.mp positive), Except.map, Except.ok.injEq, Prod.mk.injEq,
      and_true] at done
    rw [← done, ports, if_neg positive]

/-- The effect of a whole data call on the entry of its port. -/
theorem transfer_spec (dest : getDestPort contStr.socStr fd = .ok (some port))
    (found : contStr.regEnvStr.get port = some data)
    (done : transfer contStr flag fd count now (fun _ => (moved, later)) = .ok (next, moved)) :
    next.regEnvStr.get port = some
      (if 0 < moved then (data.opened flag now).closed flag moved later
        else data.opened flag now) := by
  rw [transfer_ports dest found done, if_pos rfl]

/-- A data call on a connection of a port with an entry completes and keeps the socket trees. -/
theorem transfer_done (dest : getDestPort contStr.socStr fd = .ok (some port))
    (found : contStr.regEnvStr.get port = some data) (flag : Bool) (count : Nat) (now : Timespec)
    (moved : Int) (later : Timespec) : ∃ next,
      transfer contStr flag fd count now (fun _ => (moved, later)) = .ok (next, moved) ∧
        next.socStr = contStr.socStr := by
  obtain ⟨middle, entered, sockets, ports⟩ := preOp_spec dest found (ssizeT count) flag now
  have opened : middle.regEnvStr.get port = some (data.opened flag now) := by rw [ports, if_pos rfl]
  have still : getDestPort middle.socStr fd = .ok (some port) := sockets.symm ▸ dest
  obtain ⟨next, left, kept⟩ : ∃ next, leave middle flag fd moved later = .ok next ∧
      next.socStr = middle.socStr := by
    by_cases positive : 0 < moved
    · obtain ⟨next, left, kept, -⟩ := leave_spec still opened flag positive later
      exact ⟨next, left, kept⟩
    · exact ⟨middle, leave_idle (Int.not_lt.mp positive) flag later, rfl⟩
  refine ⟨next, ?_, kept.trans sockets⟩
  simp only [transfer, enter, entered, if_true, left, Except.map]

/-- A data call on an unregistered descriptor changes nothing. -/
theorem transfer_lost (lost : getDestPort contStr.socStr fd = .ok none)
    (done : transfer contStr flag fd count now (fun _ => (moved, later)) = .ok (next, moved)) :
    next = contStr := by
  have absent : isAcpSockFdPresent contStr.socStr fd = false := by
    rw [isAcpSockFdPresent_eq]
    cases conn : contStr.socStr.acpSocketRb.get fd with
    | none => rfl
    | some acp =>
        cases rooted : contStr.socStr.sockRb.get acp.rootFdNumber with
        | none => cases (getDestPort_unrooted conn rooted).symm.trans lost
        | some root => cases (getDestPort_present conn rooted).symm.trans lost
  simp only [transfer, enter, preOp, absent, Bool.false_eq_true, if_false, Except.ok.injEq,
    Prod.mk.injEq, and_true] at done
  exact done.symm

/-- A data call on a port without an entry leaves the port table. -/
theorem transfer_missing (dest : getDestPort contStr.socStr fd = .ok (some port))
    (missing : contStr.regEnvStr.get port = none)
    (done : transfer contStr flag fd count now (fun _ => (moved, later)) = .ok (next, moved)) :
    next.regEnvStr = contStr.regEnvStr := by
  have window := portWindow_missing missing flag now
  simp only [transfer, enter, preOp, present_of_port dest, if_true, getPortRemainfByte, dest, window,
    leave_missing dest missing, Except.map, Except.ok.injEq, Prod.mk.injEq, and_true] at done
  rw [← done]

/-- The length for libc is the smaller one of the demand and a proper offer. -/
theorem libcLength_eq_min {offer : Int} (nonneg : 0 ≤ offer) (fits : count < 2 ^ 63)
    (sleepUntil : Option Timespec) :
    (libcLength count ⟨true, min (ssizeT count) offer, sleepUntil⟩ : Int) =
      min (count : Int) offer := by
  have least : 0 ≤ min (count : Int) offer := le_min (by omega) nonneg
  have most : min (count : Int) offer ≤ count := Int.min_le_left _ _
  simp only [libcLength, if_true, ssizeT_of_lt fits]
  rw [sizeT_of_nonneg least (by omega), Int.toNat_of_nonneg least]

end CallEffect

/-- The entry of the port follows the meter that the calls so far have charged. -/
structure Measured (flag : Bool) (port : UInt32) (limit : Int) (calls : List Call)
    (state : ControllerStruct × Int) (data : PortStruct) : Prop where
  found : state.1.regEnvStr.get port = some data
  same : data.limit flag = limit
  paced : Paced nanoMult limit (data.remaining flag) (data.startTime flag).nanos state.2
    (charges calls)

variable {flag : Bool} {port : UInt32} {limit : Int} {calls : List Call} {call : Call}
  {state next : ControllerStruct × Int} {data : PortStruct}

/-- Each call keeps the entry in step with the meter. -/
theorem Measured.step (measured : Measured flag port limit calls state data)
    (taken : CallStep flag port state call next) :
    ∃ later, Measured flag port limit (calls ++ [call]) next later := by
  obtain ⟨found, rfl, paced⟩ := measured
  cases taken with
  | @call contStr middle next clock call grant dest fits started entered slept bounded done =>
      have after := transfer_spec dest found done
      obtain ⟨other, run, -⟩ := preOp_spec dest found (ssizeT call.count) flag call.now
      obtain ⟨rfl, rfl⟩ := Prod.mk.inj (Except.ok.inj (entered.symm.trans run))
      have opened := PortStruct.opened_paced paced started slept
      have offered := PortStruct.offer_eq_remaining (paced.nonneg.trans paced.bounded) call.now
      have length := libcLength_eq_min (offered ▸ opened.nonneg) fits (data.sleep flag call.now)
      have covered := length.trans_le (Int.min_le_right _ _)
      by_cases positive : 0 < call.moved
      · rw [if_pos positive] at after
        have charged := opened.charge le_rfl positive.le (bounded.trans (covered.trans_eq offered))
        refine ⟨_, after, by simp, ?_⟩
        rw [charges_snoc, if_pos positive, PortStruct.remaining_closed, if_pos rfl,
          PortStruct.startTime_closed, if_pos rfl, max_eq_right charged.nonneg]
        exact charged
      · rw [if_neg positive] at after
        refine ⟨_, after, by simp, ?_⟩
        rw [charges_snoc, if_neg positive, List.append_nil, PortStruct.startTime_opened]
        exact opened

/-- Every call on a connection of the port completes and keeps the socket trees. -/
theorem callStep_exists (contStr : ControllerStruct) (clock : Int) (flag : Bool) (call : Call)
    (dest : getDestPort contStr.socStr call.fd = .ok (some port))
    (found : contStr.regEnvStr.get port = some data) (fits : call.count < 2 ^ 63)
    (started : clock ≤ call.now.nanos)
    (slept : call.now.nanos + Grant.slept ⟨true, 0, data.sleep flag call.now⟩ ≤ call.later.nanos)
    (bounded : call.moved ≤ sizeT (min (ssizeT call.count) (data.offer flag call.now))) :
    ∃ next, CallStep flag port (contStr, clock) call (next, call.later.nanos) ∧
      next.socStr = contStr.socStr ∧ next.regEnvStr.get port = some
        (if 0 < call.moved then (data.opened flag call.now).closed flag call.moved call.later
          else data.opened flag call.now) := by
  obtain ⟨middle, entered, -⟩ := preOp_spec dest found (ssizeT call.count) flag call.now
  obtain ⟨next, done, sockets⟩ :=
    transfer_done dest found flag call.count call.now call.moved call.later
  exact ⟨next, .call dest fits started entered slept (by simpa [libcLength] using bounded) done,
    sockets, transfer_spec dest found done⟩

theorem Measured.run (measured : Measured flag port limit [] state data)
    (run : Run (CallStep flag port) state calls next) :
    ∃ later, Measured flag port limit calls next later :=
  run.history (fun calls next => ∃ later, Measured flag port limit calls next later)
    ⟨data, measured⟩ fun _ _ _ _ ⟨_, measured⟩ taken => measured.step taken

/-- The charged calls transfer at most `k` limits in a window shorter than `k` seconds. -/
theorem Measured.rate (measured : Measured flag port limit calls state data) {first last : Int}
    {k : Nat} (short : last - first < k * nanoMult) : transferred calls first last ≤ k * limit := by
  apply measured.paced.rated first last k
  rw [nsmul_eq_mul]
  exact sub_lt_iff_lt_add'.mp short

/-- Sequential calls on the connections of a port transfer at most the limit in each second: the
calls with recorded times in a window shorter than `k` seconds transfer at most `k` limits. -/
theorem callRun_rate {contStr : ControllerStruct} {clock : Int} (reachable : Reachable contStr)
    (found : contStr.regEnvStr.get port = some data) (limited : 0 ≤ data.limit flag)
    (started : (data.startTime flag).nanos ≤ clock)
    (run : Run (CallStep flag port) (contStr, clock) calls state) {first last : Int} {k : Nat}
    (short : last - first < k * nanoMult) :
    transferred calls first last ≤ k * data.limit flag := by
  have bounds := (reachable.metered port data found flag).2 limited
  obtain ⟨later, measured⟩ := run.history
    (fun calls state => ∃ later, Measured flag port (data.limit flag) calls state later)
    ⟨data, found, rfl, .start bounds.1 bounds.2 started⟩
    fun _ _ _ _ ⟨_, measured⟩ taken => measured.step taken
  apply measured.paced.rated first last k
  rw [nsmul_eq_mul]
  exact sub_lt_iff_lt_add'.mp short

section Client

/-- The first call takes the whole budget, and the second call sleeps. -/
def clientCalls : List Call :=
  [⟨4, 9000, ⟨1, 0⟩, 5000, ⟨1, 5⟩⟩, ⟨4, 9000, ⟨1, 10⟩, 5000, ⟨2, 5⟩⟩]

set_option maxRecDepth 4000 in
theorem clientCalls_rate : ∃ state,
    Run (CallStep true 80) (clientConnection 5, 0) clientCalls state ∧
      transferred clientCalls 1000000005 2000000004 ≤ (1 : Nat) * 5000 := by
  have found : (clientConnection 5).regEnvStr.get 80 = some (.ofLimits 80 5 5 0) := by decide
  have dest : getDestPort (clientConnection 5).socStr 4 = .ok (some 80) := by decide
  obtain ⟨middle, first, sockets, entry⟩ := callStep_exists (clientConnection 5) 0 true
    ⟨4, 9000, ⟨1, 0⟩, 5000, ⟨1, 5⟩⟩ dest found (by decide) (by decide) (by decide) (by decide)
  obtain ⟨last, second, -⟩ := callStep_exists middle 1000000005 true
    ⟨4, 9000, ⟨1, 10⟩, 5000, ⟨2, 5⟩⟩ (sockets ▸ dest) entry (by decide) (by decide) (by decide)
    (by decide)
  have run : Run (CallStep true 80) (clientConnection 5, 0) clientCalls (last, 2000000005) :=
    .cons first (.cons second .start)
  exact ⟨_, run, callRun_rate (clientConnection_reachable 5).reachable found (by decide)
    (by decide) run (by decide)⟩

end Client

end BandwidthLimiter
