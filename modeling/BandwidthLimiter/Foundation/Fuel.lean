import Mathlib.Tactic.Common

namespace Foundation

section Fuel

variable {R : Type} {fuel more need : Nat} {result other : R}

/-- Fuel above a need is one round and fuel for the rest. -/
theorem exists_fuel (enough : need < fuel) : ∃ left, fuel = left + 1 ∧ need ≤ left := by
  cases fuel with
  | zero => cases enough
  | succ left => exact ⟨left, rfl, Nat.le_of_lt_succ enough⟩

/-- An evaluation that keeps its result with more fuel has one result. -/
theorem fuel_unique (eval : Nat → Option R)
    (mono : ∀ {fuel more result}, eval fuel = some result → fuel ≤ more → eval more = some result)
    (done : eval fuel = some result) (again : eval more = some other) : result = other :=
  Option.some.inj ((mono done (Nat.le_max_left fuel more)).symm.trans
    (mono again (Nat.le_max_right fuel more)))

/-- Two evaluations that return agree. -/
theorem fuel_agree (eval : Nat → Option R)
    (mono : ∀ {fuel more result}, eval fuel = some result → fuel ≤ more → eval more = some result)
    (done : eval fuel = some result) (again : eval more = some other) : eval fuel = eval more := by
  rw [done, again, fuel_unique eval mono done again]

end Fuel

section Lockstep

variable {S T S' T' : Type} {related : S → T → Prop} {related' : S' → T' → Prop} {x : Option S}
  {y : Option T}

/-- Two evaluations that stay in step before and after a bind stay in step. -/
theorem rel_bind (first : Option.Rel related x y) {f : S → Option S'} {g : T → Option T'}
    (rest : ∀ s t, related s t → Option.Rel related' (f s) (g t)) :
    Option.Rel related' (x.bind f) (y.bind g) := by
  cases first with
  | none => exact .none
  | some same => exact rest _ _ same

end Lockstep

section Loop

variable {S R : Type} {body : S → S ⊕ R} {fuel more : Nat} {state next : S} {result other : R}

/-- A loop goes on while its body gives a next state; `none` means that the fuel runs out. -/
def whileLoop (body : S → S ⊕ R) : Nat → S → Option R
  | 0, _ => none
  | fuel + 1, state =>
      match body state with
      | .inl next => whileLoop body fuel next
      | .inr result => some result

theorem whileLoop_next (taken : body state = .inl next) :
    whileLoop body (fuel + 1) state = whileLoop body fuel next := by
  rw [whileLoop, taken]

theorem whileLoop_stop (taken : body state = .inr result) :
    whileLoop body (fuel + 1) state = some result := by
  rw [whileLoop, taken]

/-- More fuel keeps the result. -/
theorem whileLoop_mono (done : whileLoop body fuel state = some result) (enough : fuel ≤ more) :
    whileLoop body more state = some result := by
  induction fuel generalizing state more with
  | zero => cases done
  | succ fuel ih =>
      obtain ⟨more, rfl, spare⟩ := exists_fuel enough
      rw [whileLoop] at done ⊢
      cases taken : body state with
      | inl next =>
          rw [taken] at done
          exact ih done spare
      | inr last =>
          rw [taken] at done
          exact done

/-- The state behind a number of rounds that all go on. -/
def rounds (body : S → S ⊕ R) : Nat → S → Option S
  | 0, state => some state
  | n + 1, state =>
      match body state with
      | .inl next => rounds body n next
      | .inr _ => none

/-- A loop returns what its body gives behind the rounds that go on. -/
theorem whileLoop_eq_some : whileLoop body fuel state = some result ↔
    ∃ n last, n < fuel ∧ rounds body n state = some last ∧ body last = .inr result := by
  induction fuel generalizing state with
  | zero => simp [whileLoop]
  | succ fuel ih =>
      rw [whileLoop]
      cases taken : body state with
      | inl next =>
          rw [ih]
          constructor
          · rintro ⟨n, last, few, behind, stop⟩
            exact ⟨n + 1, last, by omega, by rwa [rounds, taken], stop⟩
          · rintro ⟨n, last, few, behind, stop⟩
            cases n with
            | zero =>
                obtain rfl := Option.some.inj behind
                cases taken.symm.trans stop
            | succ n =>
                rw [rounds, taken] at behind
                exact ⟨n, last, by omega, behind, stop⟩
      | inr other =>
          constructor
          · rintro same
            exact ⟨0, state, by omega, rfl, taken.trans (congrArg Sum.inr (Option.some.inj same))⟩
          · rintro ⟨n, last, few, behind, stop⟩
            cases n with
            | zero =>
                obtain rfl := Option.some.inj behind
                exact congrArg some (Sum.inr.inj (taken.symm.trans stop))
            | succ n =>
                rw [rounds, taken] at behind
                cases behind

/-- A property that each round keeps holds behind any number of rounds. -/
theorem rounds_invariant {n : Nat} {last : S} (Inv : S → Prop) (initial : Inv state)
    (kept : ∀ state next, Inv state → body state = .inl next → Inv next)
    (behind : rounds body n state = some last) : Inv last := by
  induction n generalizing state with
  | zero => exact Option.some.inj behind ▸ initial
  | succ n ih =>
      rw [rounds] at behind
      cases taken : body state with
      | inl next =>
          rw [taken] at behind
          exact ih (kept _ _ initial taken) behind
      | inr other =>
          rw [taken] at behind
          cases behind

end Loop

end Foundation
