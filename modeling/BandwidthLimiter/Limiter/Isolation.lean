import BandwidthLimiter.Foundation.Machine
import BandwidthLimiter.Limiter.Section

namespace BandwidthLimiter
open Foundation

/-- The operations on the budget of a port, with the clock readings they take. -/
inductive BudgetOp where
  | getPortRemainfByte (port : UInt32) (flag : Bool) (currentTime : Timespec)
  | updateByteCount (port : UInt32) (flag : Bool) (usedBytes : Int) (positive : 0 < usedBytes)
  | updateTimeVal (port : UInt32) (flag : Bool) (ts : Timespec)
  deriving DecidableEq, Repr

namespace BudgetOp

def port : BudgetOp → UInt32
  | .getPortRemainfByte port _ _ => port
  | .updateByteCount port _ _ _ => port
  | .updateTimeVal port _ _ => port

def flag : BudgetOp → Bool
  | .getPortRemainfByte _ flag _ => flag
  | .updateByteCount _ flag _ _ => flag
  | .updateTimeVal _ flag _ => flag

/-- The first operation alone decides a grant and a sleep. -/
def perform (env : RegisterEnvStruct) : BudgetOp → RegisterEnvStruct × Option Window
  | .getPortRemainfByte port flag currentTime =>
      let result := portWindow env port flag currentTime
      (result.1, some result.2)
  | .updateByteCount port flag usedBytes _ =>
      ((updateByteCountCurrentWindow env port usedBytes flag).1, none)
  | .updateTimeVal port flag ts => ((BandwidthLimiter.updateTimeVal env port flag ts).1, none)

/-- The operation works on the port in the direction. -/
def on (port : UInt32) (flag : Bool) (op : BudgetOp) : Bool := op.port = port && op.flag = flag

/-- The change of the entry of the port. -/
def change (data : PortStruct) : BudgetOp → PortStruct
  | .getPortRemainfByte _ flag currentTime => data.opened flag currentTime
  | .updateByteCount _ flag usedBytes _ => data.deduct usedBytes flag
  | .updateTimeVal _ flag ts => data.setStartTime flag ts

/-- The decision for the entry of the port. -/
def decision (data : PortStruct) : BudgetOp → Option Window
  | .getPortRemainfByte _ flag currentTime =>
      some ⟨data.offer flag currentTime, data.sleep flag currentTime⟩
  | _ => none

/-- The decision for a port without an entry. -/
def decisionMissing : BudgetOp → Option Window
  | .getPortRemainfByte _ _ _ => some ⟨-1, none⟩
  | _ => none

end BudgetOp

/-- The grants and the sleeps that a run of operations decides for a port and a direction. -/
def decisions (port : UInt32) (flag : Bool) (env : RegisterEnvStruct) (ops : List BudgetOp) :
    List Window := (answers BudgetOp.perform (BudgetOp.on port flag) env ops).reduceOption

/-- What the decisions for a direction depend on. A deduction in the other direction clips the
remaining count, so only its positive part counts. -/
def PortStruct.budget (data : PortStruct) (flag : Bool) : Int × Timespec × Int :=
  (data.limit flag, data.startTime flag, max 0 (data.remaining flag))

def budgetView (port : UInt32) (flag : Bool) (env : RegisterEnvStruct) :
    Option (Int × Timespec × Int) := (env.get port).map fun data => data.budget flag

namespace BudgetOp

variable {env : RegisterEnvStruct} {data other : PortStruct} {op : BudgetOp} {flag : Bool}

/-- The effect of an operation on the port table. -/
theorem perform_spec (found : env.get op.port = some data) :
    (op.perform env).2 = op.decision data ∧ ∀ q, (op.perform env).1.get q =
      if q = op.port then some (op.change data) else env.get q := by
  cases op with
  | getPortRemainfByte port flag currentTime =>
      obtain ⟨window, ports⟩ := portWindow_spec found flag currentTime
      exact ⟨congrArg some window, ports⟩
  | updateByteCount port flag usedBytes positive =>
      refine ⟨rfl, fun q => ?_⟩
      have found : env.get port = some data := found
      rw [perform, updateByteCountCurrentWindow_fst, RegisterEnvStruct.get_update, found]
      rfl
  | updateTimeVal port flag ts =>
      refine ⟨rfl, fun q => ?_⟩
      have found : env.get port = some data := found
      rw [perform, updateTimeVal_fst, RegisterEnvStruct.get_update, found]
      rfl

/-- An operation on a port without an entry changes nothing and finds no limit. -/
theorem perform_missing (missing : env.get op.port = none) :
    op.perform env = (env, op.decisionMissing) := by
  cases op with
  | getPortRemainfByte port flag currentTime =>
      have missing : env.get port = none := missing
      rw [perform, portWindow_missing missing]
      rfl
  | updateByteCount port flag usedBytes positive =>
      have missing : env.get port = none := missing
      rw [perform, updateByteCountCurrentWindow_fst, RegisterEnvStruct.update_absent missing]
      rfl
  | updateTimeVal port flag ts =>
      have missing : env.get port = none := missing
      rw [perform, updateTimeVal_fst, RegisterEnvStruct.update_absent missing]
      rfl

/-- An operation in the other direction keeps the budget of this direction. -/
theorem budget_change_of_ne (different : flag ≠ op.flag) :
    (op.change data).budget flag = data.budget flag := by
  cases op with
  | getPortRemainfByte port direction currentTime =>
      have kept : (data.opened direction currentTime).remaining flag = data.remaining flag :=
        PortStruct.remaining_opened_of_ne different
      simp [change, PortStruct.budget, kept]
  | updateByteCount port direction usedBytes positive =>
      have other : ¬flag = direction := different
      simp [change, PortStruct.budget, other]
  | updateTimeVal port direction ts =>
      have other : ¬flag = direction := different
      simp [change, PortStruct.budget, other]

/-- Entries with the same budget start a new window at the same time. -/
theorem refills_congr (same : data.budget flag = other.budget flag) (now : Timespec) :
    data.refills flag now = other.refills flag now := by
  simp only [PortStruct.budget, Prod.mk.injEq] at same
  obtain ⟨limit, startTime, remaining⟩ := same
  have empty : data.remaining flag ≤ 0 ↔ other.remaining flag ≤ 0 := by omega
  simp only [PortStruct.refills, PortStruct.idle, limit, startTime, empty]

/-- Entries with the same budget have the same decision and the same budget after it. -/
theorem budget_change (same : data.budget op.flag = other.budget op.flag) :
    (op.change data).budget op.flag = (op.change other).budget op.flag ∧
      op.decision data = op.decision other := by
  have parts := same
  simp only [PortStruct.budget, Prod.mk.injEq] at parts
  obtain ⟨limit, startTime, remaining⟩ := parts
  cases op with
  | getPortRemainfByte port flag now =>
      have refills := refills_congr same now
      simp only [BudgetOp.flag] at limit startTime remaining refills
      have idle : data.idle flag now = other.idle flag now := by
        simp only [PortStruct.idle, startTime]
      have sleep : data.sleep flag now = other.sleep flag now := by
        simp only [PortStruct.sleep, refills, idle, startTime]
      simp only [change, decision, PortStruct.budget, BudgetOp.flag, limit, sleep,
        PortStruct.opened, PortStruct.offer, refills]
      by_cases unlimited : other.limit flag = -1
      · simp [unlimited, limit, startTime]
      · cases refilled : other.refills flag now with
        | true => simp [unlimited, limit, startTime]
        | false =>
            have full : 0 < other.remaining flag := by
              simp only [PortStruct.refills, Bool.and_eq_false_iff, Bool.or_eq_false_iff] at refilled
              simpa [unlimited] using (refilled.resolve_left (by simpa using unlimited)).2
            have equal : data.remaining flag = other.remaining flag := by omega
            simp [unlimited, limit, startTime, equal]
  | updateByteCount port flag usedBytes positive =>
      simp only [BudgetOp.flag] at limit startTime remaining
      simp only [change, PortStruct.budget, decision, BudgetOp.flag, PortStruct.limit_deduct, limit,
        PortStruct.startTime_deduct, startTime, PortStruct.remaining_deduct, if_true, Prod.mk.injEq,
        true_and, and_true]
      omega
  | updateTimeVal port flag ts =>
      simp only [BudgetOp.flag] at limit startTime remaining
      simp [change, PortStruct.budget, decision, BudgetOp.flag, limit, remaining]

end BudgetOp

/-- The grants and the sleeps for a port and a direction depend on the operations on this port in
this direction alone, whatever other operations come between them. -/
theorem budgetRun_isolated (env : RegisterEnvStruct) {port : UInt32} {flag : Bool}
    {first second : List BudgetOp}
    (same : first.filter (BudgetOp.on port flag) = second.filter (BudgetOp.on port flag)) :
    decisions port flag env first = decisions port flag env second := by
  unfold decisions
  congr 1
  refine answers_isolated (budgetView port flag) (fun env op foreign => ?_)
    (fun env image op own alike => ?_) rfl same
  · rw [budgetView, budgetView]
    cases found : env.get op.port with
    | none => rw [BudgetOp.perform_missing found]
    | some data =>
        rw [(BudgetOp.perform_spec found).2]
        split
        · rename_i equal
          have different : flag ≠ op.flag := by
            rintro rfl
            simp [BudgetOp.on, equal] at foreign
          rw [Option.map_some, BudgetOp.budget_change_of_ne different, equal, found, Option.map_some]
        · rfl
  · simp only [BudgetOp.on, Bool.and_eq_true, decide_eq_true_eq] at own
    obtain ⟨rfl, rfl⟩ := own
    simp only [budgetView] at alike ⊢
    cases found : env.get op.port with
    | none =>
        rw [found, Option.map_none, eq_comm, Option.map_eq_none_iff] at alike
        rw [BudgetOp.perform_missing found, BudgetOp.perform_missing alike, found, alike]
        exact ⟨rfl, rfl⟩
    | some data =>
        rw [found, Option.map_some, eq_comm, Option.map_eq_some_iff] at alike
        obtain ⟨other, present, budgets⟩ := alike
        obtain ⟨kept, decided⟩ := BudgetOp.budget_change budgets.symm
        obtain ⟨first, changed⟩ := BudgetOp.perform_spec found
        obtain ⟨second, alike⟩ := BudgetOp.perform_spec present
        rw [changed, alike, if_pos rfl, if_pos rfl, first, second, Option.map_some, Option.map_some,
          kept]
        exact ⟨rfl, decided⟩

section Ports

/-- The second run reads 3000 bytes between two writes, and it uses another port. -/
theorem twoPorts_isolated :
    decisions 80 false (doRegisterFromConfig [⟨80, 5, 5, 0⟩, ⟨443, 5, 5, 0⟩])
        [.getPortRemainfByte 80 false ⟨1, 0⟩, .updateByteCount 80 false 5000 (by decide),
          .getPortRemainfByte 80 false ⟨1, 5⟩] =
      decisions 80 false (doRegisterFromConfig [⟨80, 5, 5, 0⟩, ⟨443, 5, 5, 0⟩])
        [.getPortRemainfByte 80 false ⟨1, 0⟩, .updateByteCount 80 true 3000 (by decide),
          .updateByteCount 80 false 5000 (by decide), .updateTimeVal 443 false ⟨1, 2⟩,
          .getPortRemainfByte 80 false ⟨1, 5⟩] :=
  budgetRun_isolated _ (by decide)

end Ports

end BandwidthLimiter
