import Mathlib.Tactic.Common

namespace Foundation

variable {S E O T : Type}

/-- The answers of a machine to its own events, in their order. -/
def answers (step : S → E → S × O) (own : E → Bool) : S → List E → List O
  | _, [] => []
  | state, event :: rest =>
      if own event then (step state event).2 :: answers step own (step state event).1 rest
      else answers step own (step state event).1 rest

variable {step : S → E → S × O} {own : E → Bool} {Rel : S → S → Prop} {state image : S}

/-- Foreign events may be left out, when they keep a state related to its image and own events have
the same answers in related states. -/
theorem answers_filter
    (foreign : ∀ state image event, own event = false → Rel state image →
      Rel (step state event).1 image)
    (answered : ∀ state image event, own event = true → Rel state image →
      Rel (step state event).1 (step image event).1 ∧ (step state event).2 = (step image event).2)
    (related : Rel state image) (events : List E) :
    answers step own state events = answers step own image (events.filter own) := by
  induction events generalizing state image with
  | nil => rfl
  | cons event rest ih =>
      cases mine : own event with
      | false =>
          rw [List.filter_cons_of_neg (by simp [mine]), answers, if_neg (by simp [mine])]
          exact ih (foreign state image event mine related)
      | true =>
          obtain ⟨kept, same⟩ := answered state image event mine related
          rw [List.filter_cons_of_pos mine, answers, answers, if_pos mine, if_pos mine, same, ih kept]

/-- Two runs with the same own events have the same answers. -/
theorem answers_isolated (view : S → T)
    (foreign : ∀ state event, own event = false → view (step state event).1 = view state)
    (answered : ∀ state image event, own event = true → view state = view image →
      view (step state event).1 = view (step image event).1 ∧
        (step state event).2 = (step image event).2)
    (related : view state = view image) {first second : List E}
    (same : first.filter own = second.filter own) :
    answers step own state first = answers step own image second := by
  have purge (start other : S) (alike : view start = view other) (events : List E) :
      answers step own start events = answers step own other (events.filter own) := by
    let Alike (state image : S) : Prop := view state = view image
    have kept (state image : S) (event : E) (hidden : own event = false)
        (alike : Alike state image) : Alike (step state event).1 image :=
      (foreign state event hidden).trans alike
    exact answers_filter kept answered alike events
  rw [purge state image related first, same, purge image image rfl second]

end Foundation
