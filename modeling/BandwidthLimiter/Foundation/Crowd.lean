import BandwidthLimiter.Foundation.Meter
import Mathlib.Data.Fintype.Card

namespace Foundation

section Load

variable {holders : Nat} {remaining lower limit grant amount : Int} {grants before after : List Int}

/-- The part of the grants above the remaining budget. -/
def excess (remaining : Int) (grants : List Int) : Int :=
  (grants.map fun grant => max 0 (grant - remaining)).sum

/-- The most that the holders can charge until the next refill: each of them charges its grant or
the remaining budget. -/
def load (holders : Nat) (remaining : Int) (grants : List Int) : Int :=
  holders * remaining + excess remaining grants

@[simp] theorem excess_nil (remaining : Int) : excess remaining [] = 0 := rfl

theorem excess_cons (remaining grant : Int) (grants : List Int) :
    excess remaining (grant :: grants) = max 0 (grant - remaining) + excess remaining grants := rfl

theorem excess_split (remaining grant : Int) (before after : List Int) :
    excess remaining (before ++ grant :: after) =
      max 0 (grant - remaining) + excess remaining (before ++ after) := by
  simp only [excess, List.map_append, List.map_cons, List.sum_append, List.sum_cons]
  omega

theorem excess_nonneg (remaining : Int) (grants : List Int) : 0 ≤ excess remaining grants := by
  induction grants with
  | nil => exact le_rfl
  | cons grant grants ih =>
      rw [excess_cons]
      omega

/-- A smaller budget leaves each grant at most the difference more. -/
theorem excess_lower (below : lower ≤ remaining) (grants : List Int) :
    excess lower grants ≤ excess remaining grants + grants.length * (remaining - lower) := by
  induction grants with
  | nil => simp
  | cons grant grants ih =>
      rw [excess_cons, excess_cons, List.length_cons, Nat.cast_succ, add_mul, one_mul]
      omega

/-- No grant is above the limit. -/
theorem excess_limit (granted : ∀ grant ∈ grants, grant ≤ limit) : excess limit grants = 0 := by
  induction grants with
  | nil => rfl
  | cons grant grants ih =>
      have first := granted grant List.mem_cons_self
      rw [excess_cons, ih fun other mem => granted other (List.mem_cons_of_mem grant mem)]
      omega

theorem load_nonneg (nonneg : 0 ≤ remaining) : 0 ≤ load holders remaining grants :=
  add_nonneg (mul_nonneg (Int.natCast_nonneg holders) nonneg) (excess_nonneg remaining grants)

/-- A budget within the limit keeps every holder within the limit. -/
theorem load_le (bounded : remaining ≤ limit) (granted : ∀ grant ∈ grants, grant ≤ limit)
    (places : grants.length ≤ holders) : load holders remaining grants ≤ holders * limit := by
  have lowered := excess_lower bounded grants
  have count : (grants.length : Int) * (limit - remaining) ≤ holders * (limit - remaining) :=
    mul_le_mul_of_nonneg_right (by omega) (by omega)
  rw [excess_limit granted] at lowered
  rw [load]
  linarith

/-- A charge of a holder takes its amount from the load. -/
theorem load_charge (nonneg : 0 ≤ remaining) (positive : 0 ≤ amount) (covered : amount ≤ grant)
    (places : (before ++ grant :: after).length ≤ holders) :
    load holders (max 0 (remaining - amount)) (before ++ after) ≤
      load holders remaining (before ++ grant :: after) - amount := by
  let left := max 0 (remaining - amount)
  have below : left ≤ remaining := by omega
  have lowered := excess_lower below (before ++ after)
  have others : ((before ++ after).length : Int) + 1 ≤ holders := by
    simp only [List.length_append, List.length_cons] at places ⊢
    omega
  have count : ((before ++ after).length + 1 : Int) * (remaining - left) ≤
      holders * (remaining - left) := mul_le_mul_of_nonneg_right others (by omega)
  have paid : amount ≤ remaining - left + max 0 (grant - remaining) := by omega
  rw [load, load, excess_split]
  linarith

end Load

variable {T : Type} [AddCommGroup T] [LinearOrder T] [IsOrderedAddMonoid T]

/-- At most `holders` grants of a paced budget are under way at a time, and a grant does not reserve
its part of the budget. -/
structure Crowd (unit : T) (holders : Nat) (limit remaining : Int) (grants : List Int)
    (recent clock : T) (log : List (T × Int)) : Prop where
  nonneg : 0 ≤ remaining
  bounded : remaining ≤ limit
  granted : ∀ grant ∈ grants, grant ≤ limit
  places : grants.length ≤ holders
  paced : Paced unit (holders * limit) (load holders remaining grants) recent clock log

namespace Crowd

variable {unit recent clock : T} {holders : Nat} {limit remaining : Int}
  {grants before after : List Int} {log : List (T × Int)} {grant amount : Int}

omit [IsOrderedAddMonoid T] in
theorem start (nonneg : 0 ≤ remaining) (bounded : remaining ≤ limit) (reached : recent ≤ clock)
    (holders : Nat) : Crowd unit holders limit remaining [] recent clock [] where
  nonneg := nonneg
  bounded := bounded
  granted := by simp
  places := by simp
  paced := .start (load_nonneg nonneg) (load_le bounded (by simp) (by simp)) reached

omit [IsOrderedAddMonoid T] in
theorem wait (crowd : Crowd unit holders limit remaining grants recent clock log) {now : T}
    (later : clock ≤ now) : Crowd unit holders limit remaining grants recent now log :=
  { crowd with paced := crowd.paced.wait later }

omit [IsOrderedAddMonoid T] in
/-- The refill does not wait for the grants that are under way. -/
theorem refill (crowd : Crowd unit holders limit remaining grants recent clock log)
    (due : recent + unit ≤ clock) : Crowd unit holders limit limit grants recent clock log where
  nonneg := crowd.nonneg.trans crowd.bounded
  bounded := le_rfl
  granted := crowd.granted
  places := crowd.places
  paced := by
    have whole : load holders limit grants = holders * limit := by
      rw [load, excess_limit crowd.granted, add_zero]
    exact whole ▸ crowd.paced.refill due

omit [IsOrderedAddMonoid T] in
/-- A new grant within the budget leaves the load. -/
theorem admitted (crowd : Crowd unit holders limit remaining grants recent clock log)
    (small : grant ≤ remaining) (place : grants.length < holders) :
    Crowd unit holders limit remaining (grant :: grants) recent clock log where
  nonneg := crowd.nonneg
  bounded := crowd.bounded
  granted := List.forall_mem_cons.mpr ⟨small.trans crowd.bounded, crowd.granted⟩
  places := place
  paced := by
    have same : load holders remaining (grant :: grants) = load holders remaining grants := by
      rw [load, load, excess_cons, max_eq_left (by omega), zero_add]
    exact same ▸ crowd.paced

omit [IsOrderedAddMonoid T] in
/-- A grant ends without a charge. -/
theorem release (crowd : Crowd unit holders limit remaining (before ++ grant :: after) recent clock
    log) : Crowd unit holders limit remaining (before ++ after) recent clock log where
  nonneg := crowd.nonneg
  bounded := crowd.bounded
  granted other mem := crowd.granted other (by
    simp only [List.mem_append, List.mem_cons] at mem ⊢
    exact mem.imp id .inr)
  places := by
    have places := crowd.places
    simp only [List.length_append, List.length_cons] at places ⊢
    omega
  paced := by
    apply crowd.paced.lower (load_nonneg crowd.nonneg)
    rw [load, load, excess_split]
    omega

/-- A holder charges its grant or a part of it; a charge above the budget leaves no budget. -/
theorem charge (crowd : Crowd unit holders limit remaining (before ++ grant :: after) recent clock
    log) {time : T} (later : clock ≤ time) (positive : 0 ≤ amount) (covered : amount ≤ grant) :
    Crowd unit holders limit (max 0 (remaining - amount)) (before ++ after) time time
      (log ++ [(time, amount)]) where
  nonneg := le_max_left _ _
  bounded := by
    have nonneg := crowd.nonneg
    have bounded := crowd.bounded
    omega
  granted := crowd.release.granted
  places := crowd.release.places
  paced := by
    have taken := load_charge crowd.nonneg positive covered crowd.places
    have left : 0 ≤ load holders (max 0 (remaining - amount)) (before ++ after) :=
      load_nonneg (le_max_left 0 (remaining - amount))
    exact (crowd.paced.charge later positive (by omega)).lower left taken

omit [IsOrderedAddMonoid T] in
/-- The order of the grants does not matter. -/
theorem perm (crowd : Crowd unit holders limit remaining grants recent clock log) {others : List Int}
    (same : grants.Perm others) : Crowd unit holders limit remaining others recent clock log where
  nonneg := crowd.nonneg
  bounded := crowd.bounded
  granted grant mem := crowd.granted grant (same.mem_iff.mpr mem)
  places := same.length_eq ▸ crowd.places
  paced := by
    have equal : load holders remaining others = load holders remaining grants := by
      rw [load, load, excess, excess, (same.map _).sum_eq]
    exact equal ▸ crowd.paced

end Crowd

section Team

variable {H : Type} [Fintype H]

/-- The grants of the holders that have one. -/
noncomputable def grantsOf (grant : H → Option Int) : List Int := Finset.univ.toList.filterMap grant

theorem grantsOf_none : grantsOf (fun _ : H => none) = [] := List.filterMap_eq_nil_iff.mpr fun _ _ => rfl

variable [DecidableEq H] {grant : H → Option Int} {holder : H} {amount : Int}

/-- One holder has its place among the grants, and the others keep theirs. -/
theorem grantsOf_update (grant : H → Option Int) (holder : H) : ∃ before after,
    grantsOf grant = before ++ (grant holder).toList ++ after ∧
      ∀ new, grantsOf (Function.update grant holder new) = before ++ new.toList ++ after := by
  obtain ⟨front, back, whole⟩ := List.append_of_mem (Finset.mem_toList.mpr (Finset.mem_univ holder))
  have distinct := Finset.nodup_toList (Finset.univ : Finset H)
  rw [whole, List.nodup_append, List.nodup_cons] at distinct
  obtain ⟨-, ⟨later, -⟩, apart⟩ := distinct
  have place (current : H → Option Int) : grantsOf current =
      front.filterMap current ++ (current holder).toList ++ back.filterMap current := by
    rw [grantsOf, whole, List.filterMap_append, List.filterMap_cons, List.append_assoc]
    cases current holder <;> rfl
  refine ⟨front.filterMap grant, back.filterMap grant, place grant, fun new => ?_⟩
  have kept (part : List H) (absent : holder ∉ part) :
      part.filterMap (Function.update grant holder new) = part.filterMap grant := by
    apply List.filterMap_congr
    intro other mem
    rw [Function.update_of_ne]
    rintro rfl
    exact absent mem
  rw [place, kept front fun mem => apart holder mem holder List.mem_cons_self rfl, kept back later,
    Function.update_self]

omit [DecidableEq H] in
theorem length_grantsOf (grant : H → Option Int) : (grantsOf grant).length ≤ Fintype.card H :=
  (List.length_filterMap_le _ _).trans (Finset.length_toList _).le

variable {unit recent clock : T} {limit remaining : Int} {log : List (T × Int)}

/-- Each holder has at most one grant of a paced budget at a time. -/
abbrev Team (unit : T) (limit remaining : Int) (grant : H → Option Int) (recent clock : T)
    (log : List (T × Int)) : Prop :=
  Crowd unit (Fintype.card H) limit remaining (grantsOf grant) recent clock log

namespace Team

omit [IsOrderedAddMonoid T] in
/-- A holder without a grant gets one within the budget. -/
theorem admitted (team : Team unit limit remaining grant recent clock log) (free : grant holder = none)
    (small : amount ≤ remaining) :
    Team unit limit remaining (Function.update grant holder (some amount)) recent clock log := by
  obtain ⟨before, after, held, changed⟩ := grantsOf_update grant holder
  have places := length_grantsOf (Function.update grant holder (some amount))
  rw [changed, Option.toList_some] at places
  rw [Team, held, free, Option.toList_none, List.append_nil] at team
  rw [Team, changed, Option.toList_some, List.append_assoc]
  refine (Crowd.admitted team small ?_).perm List.perm_middle.symm
  simp only [List.length_append, List.length_singleton] at places ⊢
  omega

omit [IsOrderedAddMonoid T] in
/-- The grant of a holder ends, if it has one. -/
theorem release (team : Team unit limit remaining grant recent clock log) (holder : H) :
    Team unit limit remaining (Function.update grant holder none) recent clock log := by
  obtain ⟨before, after, held, changed⟩ := grantsOf_update grant holder
  rw [Team, changed, Option.toList_none, List.append_nil]
  rw [Team, held] at team
  cases own : grant holder with
  | none => simpa [own] using team
  | some amount =>
      rw [own, Option.toList_some, List.append_assoc] at team
      exact Crowd.release team

/-- A holder charges its grant or a part of it. -/
theorem charge (team : Team unit limit remaining grant recent clock log) {granted : Int}
    (own : grant holder = some granted) {time : T} (later : clock ≤ time) (positive : 0 ≤ amount)
    (covered : amount ≤ granted) : Team unit limit (max 0 (remaining - amount))
      (Function.update grant holder none) time time (log ++ [(time, amount)]) := by
  obtain ⟨before, after, held, changed⟩ := grantsOf_update grant holder
  rw [Team, changed, Option.toList_none, List.append_nil]
  rw [Team, held, own, Option.toList_some, List.append_assoc] at team
  exact Crowd.charge team later positive covered

end Team

end Team

end Foundation
