import Mathlib.Tactic.Common

namespace Foundation

variable {K V : Type} [DecidableEq K]

/-- Children name a root, and every root that a child names carries a value. -/
@[ext] structure Registry (K V : Type) where
  valueOf : K → Option V
  rootOf : K → Option K
  rooted : ∀ child root, rootOf child = some root → valueOf root ≠ none

namespace Registry

/-- The value that a child reaches through its root. -/
def dest (registry : Registry K V) (child : K) : Option V :=
  (registry.rootOf child).bind registry.valueOf

/-- No other child names the root of this child. -/
def Last (registry : Registry K V) (child root : K) : Prop :=
  registry.rootOf child = some root ∧ ∀ other, registry.rootOf other = some root → other = child

/-- A new root receives a value; an old root keeps its value. -/
def declare (registry : Registry K V) (root : K) (value : V) : Registry K V where
  valueOf key := if key = root then some ((registry.valueOf root).getD value)
    else registry.valueOf key
  rootOf := registry.rootOf
  rooted child other named := by
    have present := registry.rooted child other named
    split
    · simp
    · exact present

/-- A new child names a root that carries a value. -/
def attach (registry : Registry K V) (root child : K) : Registry K V where
  valueOf := registry.valueOf
  rootOf key :=
    if key = child ∧ registry.rootOf child = none ∧ registry.valueOf root ≠ none then some root
    else registry.rootOf key
  rooted key other named := by
    split at named
    · rename_i new
      obtain rfl := Option.some.inj named
      exact new.2.2
    · exact registry.rooted key other named

open Classical in
/-- A removed child takes its root with it when no other child names the root. -/
noncomputable def detach (registry : Registry K V) (child : K) : Registry K V where
  valueOf key := if registry.Last child key then none else registry.valueOf key
  rootOf key := if key = child then none else registry.rootOf key
  rooted key root named := by
    split at named
    · cases named
    · rename_i other
      have present := registry.rooted key root named
      rwa [if_neg fun last => other (last.2 key named)]

variable {registry : Registry K V} {child other root key : K} {value : V}

omit [DecidableEq K] in
theorem dest_eq_none : registry.dest child = none ↔ registry.rootOf child = none := by
  unfold dest
  cases named : registry.rootOf child with
  | none => simp
  | some root => simpa using registry.rooted child root named

omit [DecidableEq K] in
theorem dest_eq_some : registry.dest child = some value ↔
    ∃ root, registry.rootOf child = some root ∧ registry.valueOf root = some value :=
  Option.bind_eq_some_iff

section Declare

@[simp] theorem rootOf_declare : (registry.declare root value).rootOf = registry.rootOf := rfl

theorem valueOf_declare : (registry.declare root value).valueOf key =
    if key = root then some ((registry.valueOf root).getD value) else registry.valueOf key := rfl

theorem valueOf_declare_self :
    (registry.declare root value).valueOf root = some ((registry.valueOf root).getD value) := by
  simp [valueOf_declare]

/-- A declared value takes effect exactly for a new root or for the same value. -/
theorem declare_iff : (registry.declare root value).valueOf root = some value ↔
    registry.valueOf root = none ∨ registry.valueOf root = some value := by
  rw [valueOf_declare_self]
  cases registry.valueOf root <;> simp

/-- A declaration keeps every present value. -/
theorem valueOf_declare_of_some (present : registry.valueOf key = some value) {new : V} :
    (registry.declare root new).valueOf key = some value := by
  rw [valueOf_declare]
  split
  · rename_i same
    rw [← same, present]
    rfl
  · exact present

theorem valueOf_declare_of_ne (different : key ≠ root) :
    (registry.declare root value).valueOf key = registry.valueOf key := by
  simp [valueOf_declare, different]

@[simp] theorem dest_declare : (registry.declare root value).dest child = registry.dest child := by
  unfold dest
  cases named : registry.rootOf child with
  | none => simp [named]
  | some top =>
      obtain ⟨old, present⟩ := Option.ne_none_iff_exists'.mp (registry.rooted child top named)
      simp only [rootOf_declare, named, Option.bind_some]
      rw [valueOf_declare_of_some present, present]

end Declare

section Attach

@[simp] theorem valueOf_attach : (registry.attach root child).valueOf = registry.valueOf := rfl

theorem rootOf_attach : (registry.attach root child).rootOf key =
    if key = child ∧ registry.rootOf child = none ∧ registry.valueOf root ≠ none then some root
    else registry.rootOf key := rfl

theorem rootOf_attach_of_ne (different : key ≠ child) :
    (registry.attach root child).rootOf key = registry.rootOf key := by
  simp [rootOf_attach, different]

/-- An attachment keeps every present child. -/
theorem rootOf_attach_of_some {top : K} (present : registry.rootOf key = some top) :
    (registry.attach root child).rootOf key = some top := by
  rw [rootOf_attach, if_neg, present]
  rintro ⟨rfl, absent, -⟩
  simp [present] at absent

theorem rootOf_attach_new (absent : registry.rootOf child = none)
    (present : registry.valueOf root ≠ none) :
    (registry.attach root child).rootOf child = some root := by
  simp [rootOf_attach, absent, present]

theorem attach_unknown (absent : registry.valueOf root = none) :
    registry.attach root child = registry := by
  ext key : 2
  · rfl
  · simp [rootOf_attach, absent]

theorem dest_attach_of_some (present : registry.dest key = some value) :
    (registry.attach root child).dest key = some value := by
  obtain ⟨top, named, known⟩ := dest_eq_some.mp present
  exact dest_eq_some.mpr ⟨top, rootOf_attach_of_some named, known⟩

theorem dest_attach_new (absent : registry.rootOf child = none)
    (present : registry.valueOf root = some value) :
    (registry.attach root child).dest child = some value :=
  dest_eq_some.mpr ⟨root, rootOf_attach_new absent (by simp [present]), present⟩

end Attach

section Detach

theorem rootOf_detach :
    (registry.detach child).rootOf key = if key = child then none else registry.rootOf key := rfl

theorem rootOf_detach_self : (registry.detach child).rootOf child = none := by
  simp [rootOf_detach]

theorem rootOf_detach_of_ne (different : key ≠ child) :
    (registry.detach child).rootOf key = registry.rootOf key := by
  simp [rootOf_detach, different]

open Classical in
theorem valueOf_detach : (registry.detach child).valueOf key =
    if registry.Last child key then none else registry.valueOf key := rfl

theorem valueOf_detach_last (last : registry.Last child root) :
    (registry.detach child).valueOf root = none := by
  simp [valueOf_detach, last]

theorem valueOf_detach_of_not_last (kept : ¬registry.Last child root) :
    (registry.detach child).valueOf root = registry.valueOf root := by
  simp [valueOf_detach, kept]

/-- A removed child leaves the values of all other children. -/
theorem dest_detach_of_ne (different : key ≠ child) :
    (registry.detach child).dest key = registry.dest key := by
  unfold dest
  rw [rootOf_detach_of_ne different]
  cases named : registry.rootOf key with
  | none => rfl
  | some root => exact valueOf_detach_of_not_last fun last => different (last.2 key named)

theorem detach_absent (absent : registry.rootOf child = none) :
    registry.detach child = registry := by
  ext key : 2
  · simp [valueOf_detach, Last, absent]
  · rw [rootOf_detach]
    split
    · rename_i same
      rw [same, absent]
    · rfl

end Detach

end Registry

end Foundation
