import BandwidthLimiter.Foundation.Comparison

namespace BandwidthLimiter
open Foundation

def intComp (a b : Int) : Int :=
  if a > b then 1 else if a < b then -1 else 0

def uint32Comp (a b : UInt32) : Int :=
  if a > b then 1 else if a < b then -1 else 0

/-- The integer comparison orders the socket trees. -/
def intComparison : Comparison Int where
  compare := intComp
  values a b := by unfold intComp; split <;> [simp; (split <;> simp)]
  swap a b := by unfold intComp; grind
  trans a b c := by unfold intComp; grind

instance : intComparison.Exact where
  eq_of_zero {a b} equal := by
    change intComp a b = 0 at equal
    unfold intComp at equal
    grind

theorem uint32Comp_eq (a b : UInt32) : uint32Comp a b = intComp a.toNat b.toNat := by
  simp only [uint32Comp, intComp, gt_iff_lt, UInt32.lt_iff_toNat_lt, Int.ofNat_lt]

/-- The port comparison orders the table of ports. -/
def uint32Comparison : Comparison UInt32 where
  compare := uint32Comp
  values a b := by rw [uint32Comp_eq]; exact intComparison.values ..
  swap a b := by rw [uint32Comp_eq, uint32Comp_eq]; exact intComparison.swap ..
  trans a b c := by rw [uint32Comp_eq, uint32Comp_eq, uint32Comp_eq]; exact intComparison.trans _ _ _

instance : uint32Comparison.Exact where
  eq_of_zero {a b} equal := by
    have same := equal
    change uint32Comp a b = 0 at same
    rw [uint32Comp_eq] at same
    have values : (a.toNat : Int) = b.toNat := intComparison.eq_of_zero same
    exact UInt32.toNat_inj.mp (Int.ofNat_inj.mp values)

end BandwidthLimiter
