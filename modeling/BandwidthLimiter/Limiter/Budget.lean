import BandwidthLimiter.Limiter.Threads
import Mathlib.Algebra.Order.BigOperators.Group.List

namespace BandwidthLimiter
open Foundation

/-- The event is a step of a data call on the port in the direction. -/
def ThreadEvent.Uses (flag : Bool) (port : UInt32) : ThreadEvent → Prop
  | .enter call _ _ => call.flag = flag ∧ call.port = port
  | .libc _ _ => True
  | .finish _ _ => True
  | .other _ => False

/-- A step of data calls on one port in one direction. -/
def WindowStep (flag : Bool) (port : UInt32) (state : Threads) (event : ThreadEvent)
    (next : Threads) : Prop := ThreadStep state event next ∧ event.Uses flag port

/-- The sum of the grants of the calls that are under way. -/
def heldBytes (calls : List Pending) : Int := (calls.map fun call => call.grant.demand).sum

/-- The sum of the bytes that are moved and not charged yet. -/
def owedBytes (calls : List Pending) : Int := (calls.map Pending.uncharged).sum

/-- The grants that are under way fit in the remaining count. -/
def Threads.Committed (flag : Bool) (port : UInt32) (state : Threads) : Prop :=
  ∃ data, state.contStr.regEnvStr.get port = some data ∧ heldBytes state.calls ≤ data.remaining flag

/-- A `pre_op` meets no other grant, or its demand fits in the budget beside the other grants. -/
def Threads.Fits (flag : Bool) (port : UInt32) (state : Threads) : ThreadEvent → Prop
  | .enter call now _ => ∃ data, state.contStr.regEnvStr.get port = some data ∧
      (heldBytes state.calls = 0 ∨ heldBytes state.calls + call.count ≤
        if data.refills flag now then data.limit flag else data.remaining flag)
  | _ => True

/-- The bytes that libc has moved since the last refill of the window. -/
def movedSinceRefill (events : List ThreadEvent) : Int :=
  events.foldl (fun total event => match event with
    | .enter _ _ true => 0
    | .libc _ moved => total + max 0 moved
    | _ => total) 0

theorem movedSinceRefill_snoc (events : List ThreadEvent) (event : ThreadEvent) :
    movedSinceRefill (events ++ [event]) = match event with
      | .enter _ _ true => 0
      | .libc _ moved => movedSinceRefill events + max 0 moved
      | _ => movedSinceRefill events := by
  simp [movedSinceRefill, List.foldl_append]

/-- A call under way uses the port and has moved no more than its grant. -/
structure Pending.Sound (flag : Bool) (port : UInt32) (soS : SockStruct) (call : Pending) :
    Prop where
  dest : getDestPort soS call.fd = .ok (some port)
  direction : call.flag = flag
  nonneg : 0 ≤ call.grant.demand
  covered : call.uncharged ≤ call.grant.demand
  length : (libcLength call.count call.grant : Int) ≤ call.grant.demand

/-- The calls under way use the port, and the port has its limit and a metered entry. -/
structure Serving (flag : Bool) (port : UInt32) (limit : Int) (state : Threads)
    (data : PortStruct) : Prop where
  found : state.contStr.regEnvStr.get port = some data
  same : data.limit flag = limit
  metered : data.Metered
  sound : ∀ call ∈ state.calls, call.Sound flag port state.contStr.socStr

section Calls

variable {before after : List Pending} {call : Pending}

theorem heldBytes_cons (call : Pending) (calls : List Pending) :
    heldBytes (call :: calls) = call.grant.demand + heldBytes calls := by
  simp [heldBytes]

theorem heldBytes_split : heldBytes (before ++ call :: after) =
    call.grant.demand + heldBytes (before ++ after) := by
  simp only [heldBytes, List.map_append, List.map_cons, List.sum_append, List.sum_cons]
  omega

theorem owedBytes_cons (call : Pending) (calls : List Pending) :
    owedBytes (call :: calls) = call.uncharged + owedBytes calls := by
  simp [owedBytes]

theorem owedBytes_split : owedBytes (before ++ call :: after) =
    call.uncharged + owedBytes (before ++ after) := by
  simp only [owedBytes, List.map_append, List.map_cons, List.sum_append, List.sum_cons]
  omega

theorem owedBytes_nonneg (calls : List Pending) : 0 ≤ owedBytes calls := by
  apply List.sum_nonneg
  intro amount mem
  obtain ⟨call, -, rfl⟩ := List.mem_map.mp mem
  exact le_max_left _ _

end Calls

namespace Serving

variable {flag : Bool} {port : UInt32} {limit : Int} {state next : Threads} {data : PortStruct}
  {call : Pending} {now : Timespec} {refilled : Bool} {moved : Int}

theorem held_nonneg (serving : Serving flag port limit state data) :
    0 ≤ heldBytes state.calls := by
  apply List.sum_nonneg
  intro amount mem
  obtain ⟨call, inside, rfl⟩ := List.mem_map.mp mem
  exact (serving.sound call inside).nonneg

/-- The uncharged bytes fit in the grants. -/
theorem owed_le_held (serving : Serving flag port limit state data) :
    owedBytes state.calls ≤ heldBytes state.calls :=
  List.sum_le_sum fun call inside => (serving.sound call inside).covered

/-- The entry and the grant after a `pre_op`. -/
theorem enter (serving : Serving flag port limit state data) (limited : 0 < limit)
    (taken : ThreadStep state (.enter call now refilled) next) (direction : call.flag = flag)
    (uses : call.port = port) :
    Serving flag port limit next (data.opened flag now) ∧ refilled = data.refills flag now ∧
      heldBytes next.calls = min (call.count : Int) (data.offer flag now) + heldBytes state.calls ∧
      owedBytes next.calls = owedBytes state.calls := by
  obtain ⟨found, rfl, metered, sound⟩ := serving
  cases taken with
  | @enter contStr later calls _ _ fits dest entered active waiting unclosed =>
      subst direction uses
      obtain ⟨other, run, sockets, ports⟩ :=
        preOp_spec dest found (ssizeT call.count) call.flag now
      obtain ⟨rfl, granted⟩ := Prod.mk.inj (Except.ok.inj (entered.symm.trans run))
      have offered := (metered.offer_pos_iff call.flag now).mpr limited
      have least : 0 ≤ min (call.count : Int) (data.offer call.flag now) :=
        le_min (by omega) (by omega)
      have demand : call.grant.demand = min (call.count : Int) (data.offer call.flag now) := by
        rw [granted, ssizeT_of_lt fits]
      have length : (libcLength call.count call.grant : Int) = call.grant.demand := by
        rw [demand, granted]
        exact libcLength_eq_min (by omega) fits _
      have idle : call.uncharged = 0 := by simp [Pending.uncharged, waiting]
      refine ⟨⟨by rw [ports, if_pos rfl], by simp, metered.opened, ?_⟩, ?_,
        by rw [heldBytes_cons, demand], by rw [owedBytes_cons, idle, zero_add]⟩
      · rw [sockets]
        refine List.forall_mem_cons.mpr ⟨⟨dest, rfl, demand ▸ least, ?_, length.le⟩, sound⟩
        rw [idle, demand]
        exact least
      · simp [ControllerStruct.refills, found]

/-- A libc transfer adds the moved bytes to the uncharged bytes. -/
theorem libc (serving : Serving flag port limit state data)
    (taken : ThreadStep state (.libc call moved) next) :
    Serving flag port limit next data ∧ heldBytes next.calls = heldBytes state.calls ∧
      owedBytes next.calls = owedBytes state.calls + max 0 moved := by
  obtain ⟨found, rfl, metered, sound⟩ := serving
  cases taken with
  | @libc contStr before after _ _ waiting bounded =>
      have old := sound call (by simp)
      have idle : call.uncharged = 0 := by simp [Pending.uncharged, waiting]
      have owed : (call.returned moved).uncharged = max 0 moved := rfl
      refine ⟨⟨found, rfl, metered, forall_replace sound ⟨old.dest, old.direction, old.nonneg, ?_,
        old.length⟩⟩, ?_, ?_⟩
      · rw [owed]
        exact max_le old.nonneg (bounded.trans old.length)
      · rw [heldBytes_split, heldBytes_split]
        rfl
      · rw [owedBytes_split, owedBytes_split, idle, owed]
        omega

/-- The charge takes the moved bytes from the remaining count and frees the grant. -/
theorem finish (serving : Serving flag port limit state data) (limited : 0 < limit)
    (taken : ThreadStep state (.finish call now) next) :
    ∃ later, Serving flag port limit next later ∧
      later.remaining flag = max 0 (data.remaining flag - call.uncharged) ∧
      call.uncharged ≤ call.grant.demand ∧
      heldBytes state.calls = call.grant.demand + heldBytes next.calls ∧
      owedBytes state.calls = call.uncharged + owedBytes next.calls := by
  obtain ⟨found, rfl, metered, sound⟩ := serving
  cases taken with
  | @finish contStr _ before after _ moved _ result left =>
      have old := sound call (by simp)
      have owed : call.uncharged = max 0 moved := by simp [Pending.uncharged, result]
      have rest := forall_remove sound
      obtain rfl := old.direction
      by_cases positive : 0 < moved
      · obtain ⟨other, run, sockets, ports⟩ := leave_spec old.dest found call.flag positive now
        obtain rfl := Except.ok.inj (left.symm.trans run)
        refine ⟨data.closed call.flag moved now, ⟨by rw [ports, if_pos rfl], by simp,
          metered.closed positive now, sockets ▸ rest⟩, ?_, old.covered, heldBytes_split,
          owedBytes_split⟩
        rw [PortStruct.remaining_closed, if_pos rfl, owed, max_eq_right positive.le]
      · rw [leave_idle (Int.not_lt.mp positive)] at left
        obtain rfl := Except.ok.inj left
        have idle : call.uncharged = 0 := by rw [owed, max_eq_left (Int.not_lt.mp positive)]
        have bounds := (metered call.flag).2 limited.le
        refine ⟨data, ⟨found, rfl, metered, rest⟩, ?_, old.covered, heldBytes_split,
          owedBytes_split⟩
        rw [idle, sub_zero, max_eq_right bounds.1]

/-- The budget that a `pre_op` sees in a limited direction. -/
theorem offer_eq (serving : Serving flag port limit state data) (limited : 0 < limit)
    (now : Timespec) : data.offer flag now =
      if data.refills flag now then data.limit flag else data.remaining flag := by
  have proper : data.limit flag ≠ -1 := by
    have same := serving.same
    omega
  rw [PortStruct.offer, if_neg proper]

/-- After a `pre_op` the grants fit exactly when the demand fits beside the other grants. -/
theorem enter_committed_iff (serving : Serving flag port limit state data) (limited : 0 < limit)
    (taken : WindowStep flag port state (.enter call now refilled) next) :
    next.Committed flag port ↔ state.Fits flag port (.enter call now refilled) := by
  obtain ⟨later, -, held, -⟩ := serving.enter limited taken.1 taken.2.1 taken.2.2
  have nonneg := serving.held_nonneg
  have offered := (serving.metered.offer_pos_iff flag now).mpr (serving.same ▸ limited)
  have left := PortStruct.offer_eq_remaining (serving.same ▸ limited.le) now
  have committed : next.Committed flag port ↔
      min (call.count : Int) (data.offer flag now) + heldBytes state.calls ≤ data.offer flag now := by
    simp only [Threads.Committed, later.found, Option.some.injEq, exists_eq_left', ← left, held]
  have fits : state.Fits flag port (.enter call now refilled) ↔ heldBytes state.calls = 0 ∨
      heldBytes state.calls + call.count ≤ data.offer flag now := by
    simp only [Threads.Fits, serving.found, Option.some.injEq, exists_eq_left',
      serving.offer_eq limited]
  rw [committed, fits]
  omega

end Serving

/-- The calls under way use the port, and their grants fit in the remaining count. -/
structure Covered (flag : Bool) (port : UInt32) (limit : Int) (state : Threads)
    (data : PortStruct) : Prop where
  serving : Serving flag port limit state data
  fits : heldBytes state.calls ≤ data.remaining flag

/-- The bytes moved since the refill and the remaining count exceed the limit by no more than the
uncharged bytes. -/
def Balanced (flag : Bool) (limit : Int) (events : List ThreadEvent) (state : Threads)
    (data : PortStruct) : Prop :=
  movedSinceRefill events + data.remaining flag ≤ limit + owedBytes state.calls

namespace Covered

variable {flag : Bool} {port : UInt32} {limit : Int} {events : List ThreadEvent}
  {state next : Threads} {data : PortStruct} {event : ThreadEvent}

theorem committed (covered : Covered flag port limit state data) : state.Committed flag port :=
  ⟨data, covered.serving.found, covered.fits⟩

/-- The uncharged bytes fit in the remaining count, so the moved bytes fit in the limit. -/
theorem moved_le (covered : Covered flag port limit state data)
    (balanced : Balanced flag limit events state data) : movedSinceRefill events ≤ limit := by
  have owed := covered.serving.owed_le_held
  have fits := covered.fits
  unfold Balanced at balanced
  omega

/-- A step that fits keeps the grants covered and the bytes balanced. -/
theorem step (covered : Covered flag port limit state data) (limited : 0 < limit)
    (taken : WindowStep flag port state event next) (fits : state.Fits flag port event) :
    ∃ later, Covered flag port limit next later ∧
      ∀ events, Balanced flag limit events state data →
        Balanced flag limit (events ++ [event]) next later := by
  obtain ⟨serving, held⟩ := covered
  simp only [Balanced]
  cases event with
  | enter call now refilled =>
      obtain ⟨data', found, inside⟩ := (serving.enter_committed_iff limited taken).mpr fits
      obtain ⟨later, rfl, -, owed⟩ := serving.enter limited taken.1 taken.2.1 taken.2.2
      obtain rfl := Option.some.inj (found.symm.trans later.found)
      refine ⟨_, ⟨later, inside⟩, fun events balanced => ?_⟩
      have left := PortStruct.offer_eq_remaining (serving.same ▸ limited.le) now
      have nonneg := owedBytes_nonneg state.calls
      rw [movedSinceRefill_snoc, owed, ← left, serving.offer_eq limited]
      cases refills : data.refills flag now with
      | true => simpa [serving.same] using nonneg
      | false => simpa using balanced
  | libc call moved =>
      obtain ⟨later, same, owed⟩ := serving.libc taken.1
      refine ⟨data, ⟨later, same ▸ held⟩, fun events balanced => ?_⟩
      rw [movedSinceRefill_snoc, owed]
      dsimp only
      omega
  | finish call now =>
      obtain ⟨later, kept, left, covered, same, owed⟩ := serving.finish limited taken.1
      have nonneg := kept.held_nonneg
      refine ⟨later, ⟨kept, by omega⟩, fun events balanced => ?_⟩
      rw [movedSinceRefill_snoc]
      dsimp only
      omega
  | other event => cases taken.2

/-- A step keeps the grants within the remaining count exactly when it fits. -/
theorem committed_iff (covered : Covered flag port limit state data) (limited : 0 < limit)
    (taken : WindowStep flag port state event next) :
    next.Committed flag port ↔ state.Fits flag port event := by
  refine ⟨fun committed => ?_, fun fits => ?_⟩
  · cases event with
    | enter call now refilled =>
        exact (covered.serving.enter_committed_iff limited taken).mp committed
    | _ => trivial
  · obtain ⟨later, kept, -⟩ := covered.step limited taken fits
    exact kept.committed

end Covered

/-- The grants stay within the remaining count exactly in the runs where every `pre_op` fits, and
in these runs the bytes moved since the refill never exceed the limit. -/
theorem windowRun_committed_iff {contStr : ControllerStruct} {port : UInt32} {data : PortStruct}
    (reachable : Reachable contStr) (found : contStr.regEnvStr.get port = some data) (flag : Bool)
    (limited : 0 < data.limit flag) (events : List ThreadEvent) (state : Threads) :
    (Run (fun state event next => WindowStep flag port state event next ∧
        next.Committed flag port) ⟨contStr, []⟩ events state ↔
      Run (fun state event next => WindowStep flag port state event next ∧
        state.Fits flag port event) ⟨contStr, []⟩ events state) ∧
    (Run (fun state event next => WindowStep flag port state event next ∧
        state.Fits flag port event) ⟨contStr, []⟩ events state →
      movedSinceRefill events ≤ data.limit flag) := by
  have metered := reachable.metered port data found
  have bounds := (metered flag).2 limited.le
  have covered : Covered flag port (data.limit flag) ⟨contStr, []⟩ data :=
    ⟨⟨found, rfl, metered, by simp⟩, bounds.1⟩
  have balanced : Balanced flag (data.limit flag) [] ⟨contStr, []⟩ data := by
    simpa [Balanced, movedSinceRefill, owedBytes] using bounds.2
  constructor
  · refine Run.guard_iff (fun state => ∃ later, Covered flag port (data.limit flag) state later)
      ⟨data, covered⟩ (fun _ _ _ ⟨_, covered⟩ taken => covered.committed_iff limited taken) ?_
    rintro state event next ⟨later, covered⟩ taken fits
    obtain ⟨last, kept, -⟩ := covered.step limited taken fits
    exact ⟨last, kept⟩
  · intro run
    obtain ⟨later, covered, balanced⟩ := run.history
      (fun events state => ∃ later, Covered flag port (data.limit flag) state later ∧
        Balanced flag (data.limit flag) events state later) ⟨data, covered, balanced⟩ (by
          rintro events state event next ⟨later, covered, balanced⟩ ⟨taken, fits⟩
          obtain ⟨last, kept, moves⟩ := covered.step limited taken fits
          exact ⟨last, kept, moves events balanced⟩)
    exact covered.moved_le balanced

section Client

/-- Two threads read 2000 and 3000 bytes of the limit 5000 at once. -/
def sharedReads : List ThreadEvent :=
  [.enter (clientReadOf 2000) ⟨1, 0⟩ false, .enter (clientReadOf 3000) ⟨1, 0⟩ false,
    .libc (clientReadOf 2000) 2000, .libc (clientReadOf 3000) 3000]

theorem sharedReads_moved : ∃ state, state.calls.length = 2 ∧
    Run (fun state event next => WindowStep true 80 state event next ∧ next.Committed true 80)
      ⟨clientConnection 5, []⟩ sharedReads state ∧
    movedSinceRefill sharedReads = 5000 ∧ movedSinceRefill sharedReads ≤ 5000 := by
  obtain ⟨middle, first, dest, found⟩ :=
    clientReadOf_enter [] (show 2000 < 2 ^ 63 by decide) clientDest clientEntry
  obtain ⟨next, second, -⟩ :=
    clientReadOf_enter [clientReadOf 2000] (show 3000 < 2 ^ 63 by decide) dest found
  have moves : ThreadStep ⟨next, [clientReadOf 3000] ++ clientReadOf 2000 :: []⟩
      (.libc (clientReadOf 2000) 2000) _ := .libc rfl (by decide)
  have follows : ThreadStep ⟨next, [] ++ clientReadOf 3000 :: [(clientReadOf 2000).returned 2000]⟩
      (.libc (clientReadOf 3000) 3000) _ := .libc rfl (by decide)
  have room : heldBytes [clientReadOf 2000] + 3000 ≤ 5000 := by decide
  have run : Run (fun state event next => WindowStep true 80 state event next ∧
      state.Fits true 80 event) ⟨clientConnection 5, []⟩ sharedReads _ :=
    .cons ⟨⟨first, rfl, rfl⟩, _, clientEntry, .inl rfl⟩
      (.cons ⟨⟨second, rfl, rfl⟩, _, found, .inr room⟩
        (.cons ⟨⟨moves, trivial⟩, trivial⟩ (.cons ⟨⟨follows, trivial⟩, trivial⟩ .start)))
  obtain ⟨committed, bounded⟩ := windowRun_committed_iff (clientConnection_reachable 5).reachable
    clientEntry true (by decide) sharedReads _
  exact ⟨_, rfl, committed.mpr run, by decide, bounded run⟩

/-- Two threads are granted the same budget and move twice the limit. -/
theorem clientRead_overcommitted :
    ¬∀ (contStr : ControllerStruct) (flag : Bool) (port : UInt32) (data : PortStruct)
      (events : List ThreadEvent) (state : Threads), Reachable contStr →
      contStr.regEnvStr.get port = some data → 0 < data.limit flag →
      Run (WindowStep flag port) ⟨contStr, []⟩ events state →
      state.Committed flag port ∧ movedSinceRefill events ≤ data.limit flag := by
  intro assumed
  obtain ⟨middle, first, dest, found⟩ := clientRead_enter [] clientDest clientEntry
  obtain ⟨next, second, -⟩ := clientRead_enter [clientRead] dest found
  have moved := (assumed _ true 80 _ _ _ (clientConnection_reachable 5).reachable clientEntry
    (by decide) (.cons ⟨first, rfl, rfl⟩ (.cons ⟨second, rfl, rfl⟩
      (.cons ⟨clientRead_libc next [] [clientRead], trivial⟩
        (.cons ⟨clientRead_libc next [clientRead.returned 5000] [], trivial⟩ .start))))).2
  exact absurd moved (by decide)

end Client

end BandwidthLimiter
