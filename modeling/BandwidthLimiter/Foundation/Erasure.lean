import BandwidthLimiter.Foundation.Run

namespace Foundation

variable {S T E F : Type} {step : S → E → S → Prop} {other : T → F → T → Prop} {start : S} {image : T}
  {events : List E}

namespace Run

/-- A run of a system whose hidden events leave the image in place has an image under the events that
are visible. -/
theorem erase {state : S} (visible : E → Option F) (Rel : S → T → Prop)
    (run : Run step start events state) (initial : Rel start image)
    (shown : ∀ state image event label next, Rel state image → visible event = some label →
      step state event next → ∃ nextImage, other image label nextImage ∧ Rel next nextImage)
    (hidden : ∀ state image event next, Rel state image → visible event = none →
      step state event next → Rel next image) :
    ∃ last, Run other image (events.filterMap visible) last ∧ Rel state last := by
  induction run with
  | start => exact ⟨image, .start, initial⟩
  | @step events state next event _ taken ih =>
      obtain ⟨last, before, related⟩ := ih
      rw [List.filterMap_append]
      cases seen : visible event with
      | none =>
          simp only [List.filterMap_cons, seen, List.filterMap_nil, List.append_nil]
          exact ⟨last, before, hidden _ _ _ _ related seen taken⟩
      | some label =>
          obtain ⟨nextImage, moved, kept⟩ := shown _ _ _ _ _ related seen taken
          simp only [List.filterMap_cons, seen, List.filterMap_nil]
          exact ⟨nextImage, .step before moved, kept⟩

/-- Conversely, hidden events that are always possible can be put anywhere between the visible ones. -/
theorem unerase {last : T} (visible : E → Option F) (Rel : S → T → Prop)
    (run : Run other image (events.filterMap visible) last) (initial : Rel start image)
    (shown : ∀ state image event label nextImage, Rel state image → visible event = some label →
      other image label nextImage → ∃ next, step state event next ∧ Rel next nextImage)
    (hidden : ∀ state image event, Rel state image → visible event = none →
      ∃ next, step state event next ∧ Rel next image) :
    ∃ state, Run step start events state ∧ Rel state last := by
  induction events generalizing start image with
  | nil =>
      obtain rfl := run.nil_eq
      exact ⟨start, .start, initial⟩
  | cons event rest ih =>
      cases seen : visible event with
      | none =>
          simp only [List.filterMap_cons, seen] at run
          obtain ⟨next, taken, kept⟩ := hidden _ _ _ initial seen
          obtain ⟨state, after, related⟩ := ih run kept
          exact ⟨state, .cons taken after, related⟩
      | some label =>
          simp only [List.filterMap_cons, seen] at run
          obtain ⟨middle, first, after⟩ := run.uncons
          obtain ⟨next, taken, kept⟩ := shown _ _ _ _ _ initial seen first
          obtain ⟨state, after, related⟩ := ih after kept
          exact ⟨state, .cons taken after, related⟩

end Run

end Foundation
