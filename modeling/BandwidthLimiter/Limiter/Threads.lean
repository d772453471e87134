import BandwidthLimiter.Limiter.Rate

namespace BandwidthLimiter
open Foundation

/-- A data call between its `pre_op` and its `do_update`. The port and the closed mark are history:
the port that `pre_op` read, and whether a `close` of the descriptor followed. -/
structure Pending where
  fd : Int
  flag : Bool
  count : Nat
  port : UInt32
  grant : Grant
  moved : Option Int
  closed : Bool
  deriving DecidableEq, Repr

namespace Pending

/-- The call after the libc transfer. -/
def returned (call : Pending) (moved : Int) : Pending := { call with moved := some moved }

/-- The call after another thread has run a locked section. -/
def passed (call : Pending) : Section → Pending
  | .close fd => if call.fd = fd then { call with closed := true } else call
  | _ => call

/-- The bytes that a finished transfer has not charged yet. -/
def uncharged (call : Pending) : Int := max 0 (call.moved.getD 0)

end Pending

/-- The shared controller and the calls that are under way. -/
structure Threads where
  contStr : ControllerStruct
  calls : List Pending

inductive ThreadEvent where
  | enter (call : Pending) (now : Timespec) (refilled : Bool)
  | libc (call : Pending) (moved : Int)
  | finish (call : Pending) (now : Timespec)
  | other (event : Section)

/-- The wrappers that other threads may run between the steps of a data call. -/
def Section.IsSocketCall : Section → Prop
  | .bind _ _ => True
  | .connect _ _ => True
  | .accept _ _ => True
  | .close _ => True
  | _ => False

/-- A window starts again in this `pre_op`. -/
def ControllerStruct.refills (contStr : ControllerStruct) (port : UInt32) (flag : Bool)
    (now : Timespec) : Bool := (contStr.regEnvStr.get port).any fun data => data.refills flag now

/-- One atomic step of any thread. A call without an active grant has no second locked section, so
only active calls are under way. -/
inductive ThreadStep : Threads → ThreadEvent → Threads → Prop where
  | enter {contStr next : ControllerStruct} {calls : List Pending} {call : Pending} {now : Timespec}
      (fits : call.count < 2 ^ 63)
      (dest : getDestPort contStr.socStr call.fd = .ok (some call.port))
      (entered : enter contStr call.flag call.fd call.count now = .ok (next, call.grant))
      (active : call.grant.active = true) (waiting : call.moved = none)
      (unclosed : call.closed = false) :
      ThreadStep ⟨contStr, calls⟩ (.enter call now (contStr.refills call.port call.flag now))
        ⟨next, call :: calls⟩
  | libc {contStr : ControllerStruct} {before after : List Pending} {call : Pending} {moved : Int}
      (waiting : call.moved = none) (bounded : moved ≤ libcLength call.count call.grant) :
      ThreadStep ⟨contStr, before ++ call :: after⟩ (.libc call moved)
        ⟨contStr, before ++ call.returned moved :: after⟩
  | finish {contStr next : ControllerStruct} {before after : List Pending} {call : Pending}
      {moved : Int} {now : Timespec} (result : call.moved = some moved)
      (left : leave contStr call.flag call.fd moved now = .ok next) :
      ThreadStep ⟨contStr, before ++ call :: after⟩ (.finish call now) ⟨next, before ++ after⟩
  | other {contStr next : ControllerStruct} {calls : List Pending} {event : Section}
      (wrapper : event.IsSocketCall) (taken : SectionStep contStr event next) :
      ThreadStep ⟨contStr, calls⟩ (.other event) ⟨next, calls.map fun call => call.passed event⟩

section Calls

variable {before after : List Pending} {call : Pending} {property : Pending → Prop}

theorem forall_replace {new : Pending} (all : ∀ other ∈ before ++ call :: after, property other)
    (holds : property new) : ∀ other ∈ before ++ new :: after, property other := by
  intro other mem
  simp only [List.mem_append, List.mem_cons] at mem all
  rcases mem with mem | rfl | mem
  · exact all other (.inl mem)
  · exact holds
  · exact all other (.inr (.inr mem))

theorem forall_remove (all : ∀ other ∈ before ++ call :: after, property other) :
    ∀ other ∈ before ++ after, property other := by
  intro other mem
  simp only [List.mem_append, List.mem_cons] at mem all
  exact all other (mem.imp id .inr)

end Calls

/-- The `pre_op` of a new call on a connection of the port completes. -/
theorem enterStep_exists {contStr : ControllerStruct} {data : PortStruct} (calls : List Pending)
    (call : Pending) (now : Timespec) (fits : call.count < 2 ^ 63)
    (dest : getDestPort contStr.socStr call.fd = .ok (some call.port))
    (found : contStr.regEnvStr.get call.port = some data)
    (granted : call.grant =
      ⟨true, min (ssizeT call.count) (data.offer call.flag now), data.sleep call.flag now⟩)
    (waiting : call.moved = none) (unclosed : call.closed = false) :
    ∃ next, ThreadStep ⟨contStr, calls⟩ (.enter call now (contStr.refills call.port call.flag now))
        ⟨next, call :: calls⟩ ∧ next.socStr = contStr.socStr ∧
      ∀ q, next.regEnvStr.get q =
        if q = call.port then some (data.opened call.flag now) else contStr.regEnvStr.get q := by
  obtain ⟨next, entered, sockets, ports⟩ := preOp_spec dest found (ssizeT call.count) call.flag now
  rw [← granted] at entered
  exact ⟨next, .enter fits dest entered (by rw [granted]) waiting unclosed, sockets, ports⟩

section Client

/-- A read of the client connection before its transfer, in the window of a fresh budget. -/
def clientReadOf (count : Nat) : Pending := ⟨4, true, count, 80, ⟨true, min count 5000, none⟩, none, false⟩

/-- A read of the client connection that is granted the whole budget of its window. -/
def clientRead : Pending := clientReadOf 9000

theorem clientEntry : (clientConnection 5).regEnvStr.get 80 = some (.ofLimits 80 5 5 0) := by decide

/-- The read is granted its length or the whole budget whatever calls are under way. -/
theorem clientReadOf_enter {contStr : ControllerStruct} (calls : List Pending) {count : Nat}
    (fits : count < 2 ^ 63) (dest : getDestPort contStr.socStr 4 = .ok (some 80))
    (found : contStr.regEnvStr.get 80 = some (.ofLimits 80 5 5 0)) :
    ∃ next, ThreadStep ⟨contStr, calls⟩ (.enter (clientReadOf count) ⟨1, 0⟩ false)
        ⟨next, clientReadOf count :: calls⟩ ∧
      getDestPort next.socStr 4 = .ok (some 80) ∧
      next.regEnvStr.get 80 = some (.ofLimits 80 5 5 0) := by
  have granted : (clientReadOf count).grant = ⟨true, min (ssizeT count)
      ((PortStruct.ofLimits 80 5 5 0).offer true ⟨1, 0⟩),
      (PortStruct.ofLimits 80 5 5 0).sleep true ⟨1, 0⟩⟩ := by
    rw [ssizeT_of_lt fits]
    rfl
  obtain ⟨next, taken, sockets, ports⟩ := enterStep_exists calls (clientReadOf count) ⟨1, 0⟩ fits dest
    found granted rfl rfl
  have same : contStr.refills 80 true ⟨1, 0⟩ = false := by
    simp only [ControllerStruct.refills, found]
    decide
  have kept : (PortStruct.ofLimits 80 5 5 0).opened true ⟨1, 0⟩ = .ofLimits 80 5 5 0 := by decide
  exact ⟨next, same ▸ taken, sockets ▸ dest,
    (ports 80).trans ((if_pos rfl).trans (congrArg some kept))⟩

/-- The read is granted the whole budget whatever calls are under way. -/
theorem clientRead_enter {contStr : ControllerStruct} (calls : List Pending)
    (dest : getDestPort contStr.socStr 4 = .ok (some 80))
    (found : contStr.regEnvStr.get 80 = some (.ofLimits 80 5 5 0)) :
    ∃ next, ThreadStep ⟨contStr, calls⟩ (.enter clientRead ⟨1, 0⟩ false)
        ⟨next, clientRead :: calls⟩ ∧
      getDestPort next.socStr 4 = .ok (some 80) ∧
      next.regEnvStr.get 80 = some (.ofLimits 80 5 5 0) :=
  clientReadOf_enter calls (by decide) dest found

theorem clientRead_libc (contStr : ControllerStruct) (before after : List Pending) :
    ThreadStep ⟨contStr, before ++ clientRead :: after⟩ (.libc clientRead 5000)
      ⟨contStr, before ++ clientRead.returned 5000 :: after⟩ :=
  .libc rfl (by decide)

set_option maxRecDepth 4000 in
theorem clientDest : getDestPort (clientConnection 5).socStr 4 = .ok (some 80) := by decide

end Client

end BandwidthLimiter
