import Mathlib.Data.List.Nodup
import Mathlib.Tactic.Common

namespace Foundation

/-- A three-way comparison of a total preorder: 1 for after, -1 for before, 0 for equal. -/
structure Comparison (K : Type) where
  compare : K → K → Int
  values : ∀ a b, compare a b = 1 ∨ compare a b = 0 ∨ compare a b = -1
  swap : ∀ a b, compare b a = -compare a b
  trans : ∀ a b c, compare a b ≤ 0 → compare b c ≤ 0 → compare a c ≤ 0

namespace Comparison

variable {K : Type} (comparison : Comparison K)

theorem self (a : K) : comparison.compare a a = 0 := by
  have := comparison.swap a a
  omega

/-- The comparison of the images under a map. -/
def comap {K' : Type} (f : K' → K) : Comparison K' where
  compare a b := comparison.compare (f a) (f b)
  values a b := comparison.values (f a) (f b)
  swap a b := comparison.swap (f a) (f b)
  trans a b c := comparison.trans (f a) (f b) (f c)

/-- A key that does not come after another one is at most that key. -/
theorem le_iff (a b : K) : comparison.compare a b ≠ 1 ↔ comparison.compare a b ≤ 0 := by
  rcases comparison.values a b with value | value | value <;> omega

/-- Everything at or after a later key is later. -/
theorem after_of_after {a b q : K} (later : comparison.compare a q = 1)
    (le : comparison.compare a b ≠ 1) : comparison.compare b q = 1 := by
  by_contra other
  have := comparison.trans a b q ((comparison.le_iff ..).mp le) ((comparison.le_iff ..).mp other)
  omega

/-- Everything at or before an earlier key is earlier. -/
theorem before_of_before {a b q : K} (earlier : comparison.compare a q = -1)
    (le : comparison.compare b a ≠ 1) : comparison.compare b q = -1 := by
  have up := comparison.trans b a q ((comparison.le_iff ..).mp le) (by omega)
  rcases comparison.values b q with value | value | value
  · omega
  · have back := comparison.swap b q
    have down := comparison.trans q b a (by omega) ((comparison.le_iff ..).mp le)
    have turned := comparison.swap a q
    omega
  · exact value

/-- The bound of an upper bound is an upper bound. -/
theorem le_trans {a b q : K} (first : comparison.compare a b ≠ 1)
    (second : comparison.compare b q ≠ 1) : comparison.compare a q ≠ 1 :=
  (comparison.le_iff ..).mpr (comparison.trans a b q ((comparison.le_iff ..).mp first)
    ((comparison.le_iff ..).mp second))

/-- An exact comparison is zero only at equal keys. -/
class Exact (comparison : Comparison K) : Prop where
  eq_of_zero : ∀ {a b}, comparison.compare a b = 0 → a = b

export Exact (eq_of_zero)

/-- The keys of a list never decrease. -/
def Sorted {A : Type} (key : A → Option K) (list : List A) : Prop :=
  list.Pairwise fun a b => ∀ ka ∈ key a, ∀ kb ∈ key b, comparison.compare ka kb ≠ 1

/-- The order of a list depends only on the keys of its members. -/
theorem Sorted.congr {A : Type} {comparison : Comparison K} {key other : A → Option K}
    {list : List A} (sorted : comparison.Sorted key list) (same : ∀ a ∈ list, other a = key a) :
    comparison.Sorted other list := by
  refine List.Pairwise.imp_of_mem ?_ sorted
  intro a b memA memB rel
  rwa [same a memA, same b memB]

/-- A key between two parts of a sorted list can be placed there. -/
theorem Sorted.insert {A : Type} {comparison : Comparison K} {key : A → Option K} {x : A} {z : K}
    {first second : List A} (sorted : comparison.Sorted key (first ++ second))
    (keyX : key x = some z)
    (lower : ∀ a ∈ first, ∀ k ∈ key a, comparison.compare k z ≠ 1)
    (upper : ∀ a ∈ second, ∀ k ∈ key a, comparison.compare k z = 1) :
    comparison.Sorted key (first ++ x :: second) := by
  simp only [Sorted, List.pairwise_append, List.pairwise_cons] at sorted ⊢
  obtain ⟨left, right, across⟩ := sorted
  refine ⟨left, ⟨?_, right⟩, ?_⟩
  · intro b mem kx isX kb isB
    obtain rfl : z = kx := by simpa [keyX] using isX
    have later := upper b mem kb isB
    have turned := comparison.swap kb z
    omega
  · intro a mem b other
    rcases List.mem_cons.mp other with rfl | other
    · intro ka isA kb isB
      obtain rfl : z = kb := by simpa [keyX] using isB
      exact lower a mem ka isA
    · exact across a mem b other

end Comparison

end Foundation
