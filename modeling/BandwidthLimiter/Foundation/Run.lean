import Mathlib.Tactic.Common

namespace Foundation

variable {S E T : Type}

/-- A run takes steps from a start state and records their events in order. -/
inductive Run (step : S → E → S → Prop) (start : S) : List E → S → Prop where
  | start : Run step start [] start
  | step {events : List E} {state next : S} {event : E} (run : Run step start events state)
      (taken : step state event next) : Run step start (events ++ [event]) next

namespace Run

variable {step : S → E → S → Prop} {start state : S} {events : List E}

/-- A property of the events so far and the state holds after every run. -/
theorem history (Inv : List E → S → Prop) (run : Run step start events state)
    (initial : Inv [] start)
    (preserved : ∀ events state event next, Inv events state → step state event next →
      Inv (events ++ [event]) next) : Inv events state := by
  induction run with
  | start => exact initial
  | step _ taken ih => exact preserved _ _ _ _ ih taken

/-- A property that every step keeps holds after every run. -/
theorem invariant (Inv : S → Prop) (run : Run step start events state) (initial : Inv start)
    (preserved : ∀ state event next, Inv state → step state event next → Inv next) : Inv state := by
  induction run with
  | start => exact initial
  | step _ taken ih => exact preserved _ _ _ ih taken

/-- A property that every step with an allowed event keeps holds after a run of allowed events. -/
theorem invariant_of_events (Inv : S → Prop) (Allowed : E → Prop)
    (run : Run step start events state) (allowed : ∀ event ∈ events, Allowed event)
    (initial : Inv start)
    (preserved : ∀ state event next, Inv state → Allowed event → step state event next → Inv next) :
    Inv state := by
  induction run with
  | start => exact initial
  | step _ taken ih =>
      have before := ih fun event mem => allowed event (List.mem_append_left _ mem)
      exact preserved _ _ _ before (allowed _ (List.mem_append_right _ List.mem_cons_self)) taken

/-- A run of a stricter step relation is a run of the weaker one. -/
theorem mono {weaker : S → E → S → Prop} (run : Run step start events state)
    (implied : ∀ state event next, step state event next → weaker state event next) :
    Run weaker start events state := by
  induction run with
  | start => exact .start
  | step _ taken ih => exact .step ih (implied _ _ _ taken)

/-- Two guards that agree under an invariant, which guarded steps keep, allow the same runs. -/
theorem guard_iff {first second : S → E → S → Prop} (Inv : S → Prop) (initial : Inv start)
    (agree : ∀ state event next, Inv state → step state event next →
      (first state event next ↔ second state event next))
    (kept : ∀ state event next, Inv state → step state event next → second state event next →
      Inv next) :
    Run (fun state event next => step state event next ∧ first state event next)
        start events state ↔
      Run (fun state event next => step state event next ∧ second state event next)
        start events state := by
  constructor
  · intro run
    refine (run.history (fun events state => Inv state ∧ Run (fun state event next =>
      step state event next ∧ second state event next) start events state) ⟨initial, .start⟩ ?_).2
    rintro events state event next ⟨invariant, before⟩ ⟨taken, guard⟩
    have other := (agree state event next invariant taken).mp guard
    exact ⟨kept state event next invariant taken other, .step before ⟨taken, other⟩⟩
  · intro run
    refine (run.history (fun events state => Inv state ∧ Run (fun state event next =>
      step state event next ∧ first state event next) start events state) ⟨initial, .start⟩ ?_).2
    rintro events state event next ⟨invariant, before⟩ ⟨taken, guard⟩
    have other := (agree state event next invariant taken).mpr guard
    exact ⟨kept state event next invariant taken guard, .step before ⟨taken, other⟩⟩

/-- A run continues where another one ends. -/
theorem append {more : List E} {last : S} (run : Run step start events state)
    (rest : Run step state more last) : Run step start (events ++ more) last := by
  induction rest with
  | start => simpa using run
  | step _ taken ih =>
      rw [← List.append_assoc]
      exact .step ih taken

/-- A run may start with one more step. -/
theorem cons {event : E} {middle : S} (first : step start event middle)
    (rest : Run step middle events state) : Run step start (event :: events) state :=
  append (.step .start first) rest

/-- A run over a list of events passes through a state at every split of the list. -/
theorem split {first second : List E} (run : Run step start (first ++ second) state) :
    ∃ middle, Run step start first middle ∧ Run step middle second state := by
  generalize whole : first ++ second = events at run
  induction run generalizing second with
  | start =>
      obtain ⟨rfl, rfl⟩ := List.append_eq_nil_iff.mp whole
      exact ⟨start, .start, .start⟩
  | step run taken ih =>
      rcases List.eq_nil_or_concat second with rfl | ⟨front, event, rfl⟩
      · rw [List.append_nil] at whole
        subst whole
        exact ⟨_, .step run taken, .start⟩
      · rw [List.concat_eq_append, ← List.append_assoc] at whole
        obtain ⟨same, last⟩ := List.append_inj' whole rfl
        obtain ⟨middle, before, after⟩ := ih same
        obtain rfl := List.singleton_inj.mp last
        rw [List.concat_eq_append]
        exact ⟨middle, before, .step after taken⟩

/-- A run without events stays at its start. -/
theorem nil_eq (run : Run step start [] state) : state = start := by
  generalize empty : [] = events at run
  cases run with
  | start => rfl
  | step => simp at empty

/-- A run with a single event is a step. -/
theorem single {event : E} (run : Run step start [event] state) : step start event state := by
  generalize whole : [event] = events at run
  cases run with
  | start => cases whole
  | @step front _ _ last run taken =>
      obtain ⟨rfl, same⟩ := List.append_inj' (show [] ++ [event] = front ++ [last] from whole) rfl
      obtain rfl := List.singleton_inj.mp same
      rwa [run.nil_eq] at taken

/-- A run with a first event starts with its step. -/
theorem uncons {event : E} {rest : List E} (run : Run step start (event :: rest) state) :
    ∃ middle, step start event middle ∧ Run step middle rest state := by
  have whole : Run step start ([event] ++ rest) state := run
  obtain ⟨middle, before, after⟩ := whole.split
  exact ⟨middle, before.single, after⟩

/-- A relation that the steps of two systems keep relates their runs. -/
theorem simulate {other : T → E → T → Prop} {image : T} (Rel : S → T → Prop)
    (run : Run step start events state) (initial : Rel start image)
    (simulated : ∀ state image event next, Rel state image → step state event next →
      ∃ nextImage, other image event nextImage ∧ Rel next nextImage) :
    ∃ last, Run other image events last ∧ Rel state last := by
  induction run with
  | start => exact ⟨image, .start, initial⟩
  | step _ taken ih =>
      obtain ⟨last, before, related⟩ := ih
      obtain ⟨next, moved, kept⟩ := simulated _ _ _ _ related taken
      exact ⟨next, .step before moved, kept⟩

end Run

end Foundation
