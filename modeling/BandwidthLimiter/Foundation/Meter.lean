import Mathlib.Algebra.BigOperators.Group.List.Basic
import Mathlib.Algebra.Order.Group.Defs
import Mathlib.Algebra.Order.Ring.Int
import Mathlib.Tactic.Common
import Mathlib.Tactic.Linarith

namespace Foundation

variable {T : Type} [AddCommGroup T] [LinearOrder T] [IsOrderedAddMonoid T]

/-- The sum of the amounts that a log holds between two times. -/
def within (log : List (T × Int)) (first last : T) : Int :=
  ((log.filter fun entry => first ≤ entry.1 ∧ entry.1 ≤ last).map Prod.snd).sum

/-- A meter grants a budget, and it restores the budget a full unit after the recent charge. The
log holds every charge with its time. -/
structure Paced (unit : T) (limit remaining : Int) (recent clock : T) (log : List (T × Int)) :
    Prop where
  nonneg : 0 ≤ remaining
  bounded : remaining ≤ limit
  ordered : ∀ entry ∈ log, entry.1 ≤ recent
  reached : recent ≤ clock
  rated : ∀ (first last : T) (k : Nat), last < first + k • unit → within log first last ≤ k * limit
  budget : recent + unit ≤ clock ∨ ∀ (first : T) (k : Nat), 0 < k → recent < first + k • unit →
    within log first recent + remaining ≤ k * limit

section Within

variable {log : List (T × Int)} {first last recent : T}

omit [AddCommGroup T] [IsOrderedAddMonoid T]

@[simp] theorem within_nil (first last : T) : within [] first last = 0 := rfl

theorem within_snoc (log : List (T × Int)) (time : T) (amount : Int) (first last : T) :
    within (log ++ [(time, amount)]) first last =
      within log first last + if first ≤ time ∧ time ≤ last then amount else 0 := by
  unfold within
  rw [List.filter_append, List.map_append, List.sum_append]
  congr 1
  split <;> simp_all

/-- Later bounds than the recent charge select the same charges. -/
theorem within_recent (ordered : ∀ entry ∈ log, entry.1 ≤ recent) (later : recent ≤ last)
    (first : T) : within log first last = within log first recent := by
  unfold within
  congr 2
  apply List.filter_congr
  intro entry mem
  have early := ordered entry mem
  simp [early, early.trans later]

end Within

namespace Paced

variable {unit recent clock : T} {limit remaining : Int} {log : List (T × Int)}

omit [IsOrderedAddMonoid T] in
/-- A meter without a log is paced for every budget within its limit. -/
theorem start (nonneg : 0 ≤ remaining) (bounded : remaining ≤ limit) (reached : recent ≤ clock) :
    Paced unit limit remaining recent clock [] where
  nonneg := nonneg
  bounded := bounded
  ordered := by simp
  reached := reached
  rated _ _ k _ := mul_nonneg (Int.natCast_nonneg k) (nonneg.trans bounded)
  budget := by
    refine .inr fun first k positive _ => ?_
    have least : (1 : Int) ≤ k := by omega
    rw [within_nil, zero_add]
    exact bounded.trans (le_mul_of_one_le_left (nonneg.trans bounded) least)

omit [IsOrderedAddMonoid T] in
/-- The clock moves on without a charge. -/
theorem wait (paced : Paced unit limit remaining recent clock log) {now : T} (later : clock ≤ now) :
    Paced unit limit remaining recent now log where
  nonneg := paced.nonneg
  bounded := paced.bounded
  ordered := paced.ordered
  reached := paced.reached.trans later
  rated := paced.rated
  budget := paced.budget.imp_left fun due => due.trans later

omit [IsOrderedAddMonoid T] in
/-- The budget returns to its limit when a full unit has passed. -/
theorem refill (paced : Paced unit limit remaining recent clock log)
    (due : recent + unit ≤ clock) : Paced unit limit limit recent clock log where
  nonneg := paced.nonneg.trans paced.bounded
  bounded := le_rfl
  ordered := paced.ordered
  reached := paced.reached
  rated := paced.rated
  budget := .inl due

omit [IsOrderedAddMonoid T] in
/-- A smaller budget is paced too. -/
theorem lower (paced : Paced unit limit remaining recent clock log) {left : Int} (nonneg : 0 ≤ left)
    (below : left ≤ remaining) : Paced unit limit left recent clock log where
  nonneg := nonneg
  bounded := below.trans paced.bounded
  ordered := paced.ordered
  reached := paced.reached
  rated := paced.rated
  budget := paced.budget.imp_right fun budget first k positive short =>
    (Int.add_le_add_left below _).trans (budget first k positive short)

/-- The budget covers every window that reaches from a start to the clock. -/
theorem budget_at (paced : Paced unit limit remaining recent clock log) {time first : T}
    (later : clock ≤ time) {k : Nat} (positive : 0 < k) (short : time < first + k • unit) :
    within log first recent + remaining ≤ k * limit := by
  rcases paced.budget with due | budget
  · obtain ⟨j, rfl⟩ := Nat.exists_eq_succ_of_ne_zero positive.ne'
    have before : recent + unit < first + j • unit + unit := by
      calc recent + unit ≤ time := due.trans later
        _ < first + (j + 1) • unit := short
        _ = first + j • unit + unit := by rw [succ_nsmul, add_assoc]
    have rated := paced.rated first recent j (lt_of_add_lt_add_right before)
    have bounded := paced.bounded
    push_cast
    linarith
  · exact budget first k positive ((paced.reached.trans later).trans_lt short)

/-- A charge within the budget is logged with its time. -/
theorem charge (paced : Paced unit limit remaining recent clock log) {time : T} {amount : Int}
    (later : clock ≤ time) (positive : 0 ≤ amount) (covered : amount ≤ remaining) :
    Paced unit limit (remaining - amount) time time (log ++ [(time, amount)]) where
  nonneg := by omega
  bounded := by
    have bounded := paced.bounded
    omega
  ordered := by
    intro entry mem
    rcases List.mem_append.mp mem with old | new
    · exact (paced.ordered entry old).trans (paced.reached.trans later)
    · exact (List.mem_singleton.mp new) ▸ le_rfl
  reached := le_rfl
  rated first last k short := by
    rw [within_snoc]
    split
    · rename_i inside
      have reach := inside.2.trans_lt short
      have some_unit : 0 < k := by
        rcases Nat.eq_zero_or_pos k with rfl | positive
        · simp only [zero_nsmul, add_zero] at reach
          exact absurd inside.1 (not_le.mpr reach)
        · exact positive
      have budget := paced.budget_at later some_unit reach
      rw [within_recent paced.ordered ((paced.reached.trans later).trans inside.2)]
      omega
    · rw [add_zero]
      exact paced.rated first last k short
  budget := by
    refine .inr fun first k some_unit short => ?_
    have budget := paced.budget_at later some_unit short
    rw [within_snoc, within_recent paced.ordered (paced.reached.trans later)]
    split <;> omega

end Paced

end Foundation
