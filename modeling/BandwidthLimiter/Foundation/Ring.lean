import Mathlib.Data.List.Nodup
import Mathlib.Tactic.Common

namespace Foundation

variable {A P : Type} {address : A → P} {next prev next' prev' : A → P}

/-- Cells from `a` over the given ones to `b`, linked in both directions. A ring runs from its head
back to its head. -/
def Segment (address : A → P) (next prev : A → P) : A → List A → A → Prop
  | a, [], b => next a = address b ∧ prev b = address a
  | a, cell :: rest, b =>
      (next a = address cell ∧ prev cell = address a) ∧ Segment address next prev cell rest b

/-- The last cell before the end of a segment. -/
def lastCell (a : A) (cells : List A) : A := cells.getLast?.getD a

@[simp] theorem lastCell_nil (a : A) : lastCell a [] = a := rfl

@[simp] theorem lastCell_cons (a cell : A) (rest : List A) :
    lastCell a (cell :: rest) = lastCell cell rest := by
  rw [lastCell, lastCell, List.getLast?_cons]
  rfl

theorem lastCell_mem (a : A) (cells : List A) : lastCell a cells ∈ a :: cells := by
  rw [lastCell, ← List.getLastD_eq_getLast?]
  exact List.getLastD_mem_cons

/-- The first cell behind the start of a segment. -/
def firstCell (cells : List A) (b : A) : A := cells.head?.getD b

@[simp] theorem firstCell_nil (b : A) : firstCell [] b = b := rfl

@[simp] theorem firstCell_cons (cell : A) (rest : List A) (b : A) :
    firstCell (cell :: rest) b = cell := rfl

theorem firstCell_mem (cells : List A) (b : A) : firstCell cells b ∈ b :: cells := by
  cases cells <;> simp

namespace Segment

variable {a b cell new : A} {cells first rest : List A}

theorem next_start (segment : Segment address next prev a cells b) :
    next a = address (firstCell cells b) := by
  cases cells with
  | nil => exact segment.1
  | cons cell rest => exact segment.1.1

theorem prev_end (segment : Segment address next prev a cells b) :
    prev b = address (lastCell a cells) := by
  induction cells generalizing a with
  | nil => exact segment.2
  | cons cell rest ih =>
      rw [lastCell_cons]
      exact ih segment.2

/-- A segment depends on the forward links of its cells and on the backward links behind its start. -/
theorem congr (segment : Segment address next prev a cells b)
    (forward : ∀ x ∈ a :: cells, next' x = next x)
    (backward : ∀ x ∈ cells ++ [b], prev' x = prev x) :
    Segment address next' prev' a cells b := by
  induction cells generalizing a with
  | nil =>
      exact ⟨(forward a (by simp)).trans segment.1, (backward b (by simp)).trans segment.2⟩
  | cons cell rest ih =>
      exact ⟨⟨(forward a (by simp)).trans segment.1.1, (backward cell (by simp)).trans segment.1.2⟩,
        ih segment.2 (fun x mem => forward x (List.mem_cons_of_mem _ mem))
          (fun x mem => backward x (List.mem_cons_of_mem _ mem))⟩

/-- A new cell between the last one and the end. -/
theorem concat (segment : Segment address next prev a cells b)
    (distinct : (a :: cells).Nodup) (fromLast : next' (lastCell a cells) = address new)
    (toEnd : next' new = address b) (toLast : prev' new = address (lastCell a cells))
    (fromEnd : prev' b = address new)
    (forward : ∀ x ∈ a :: cells, x ≠ lastCell a cells → next' x = next x)
    (backward : ∀ x ∈ cells, prev' x = prev x) :
    Segment address next' prev' a (cells ++ [new]) b := by
  induction cells generalizing a with
  | nil => exact ⟨⟨fromLast, toLast⟩, toEnd, fromEnd⟩
  | cons cell rest ih =>
      rw [lastCell_cons] at fromLast toLast forward
      have other : a ≠ lastCell cell rest := fun same =>
        (List.nodup_cons.mp distinct).1 (same ▸ lastCell_mem cell rest)
      refine ⟨⟨(forward a (by simp) other).trans segment.1.1,
        (backward cell (by simp)).trans segment.1.2⟩, ?_⟩
      exact ih segment.2 (List.nodup_cons.mp distinct).2 fromLast toLast
        (fun x mem => forward x (List.mem_cons_of_mem _ mem))
        (fun x mem => backward x (List.mem_cons_of_mem _ mem))

/-- The cells without the first one. -/
theorem tail (segment : Segment address next prev a (cell :: rest) b)
    (distinct : (cell :: rest).Nodup) (outside : b ∉ rest)
    (fromStart : next' a = address (firstCell rest b))
    (toStart : prev' (firstCell rest b) = address a)
    (forward : ∀ x ∈ rest, next' x = next x)
    (backward : ∀ x ∈ rest ++ [b], x ≠ firstCell rest b → prev' x = prev x) :
    Segment address next' prev' a rest b := by
  cases rest with
  | nil => exact ⟨fromStart, toStart⟩
  | cons second others =>
      refine ⟨⟨fromStart, toStart⟩, segment.2.2.congr forward fun x mem => ?_⟩
      apply backward x (List.mem_cons_of_mem _ mem)
      rintro rfl
      rcases List.mem_append.mp mem with mem | mem
      · exact (List.nodup_cons.mp (List.nodup_cons.mp distinct).2).1 mem
      · exact outside (List.mem_singleton.mp mem ▸ List.mem_cons_self)

/-- A segment splits at each of its cells. -/
theorem append : Segment address next prev a (first ++ cell :: rest) b ↔
    Segment address next prev a first cell ∧ Segment address next prev cell rest b := by
  induction first generalizing a with
  | nil => exact Iff.rfl
  | cons other others ih => simp only [List.cons_append, Segment, ih, and_assoc]

/-- The cells without one of them: the cells next to it are linked with each other. -/
theorem remove (segment : Segment address next prev a (first ++ cell :: rest) b)
    (distinct : (a :: (first ++ cell :: rest)).Nodup) (outside : b ∉ first ++ cell :: rest)
    (fromLast : next' (lastCell a first) = address (firstCell rest b))
    (toFirst : prev' (firstCell rest b) = address (lastCell a first))
    (forward : ∀ x ∈ a :: (first ++ rest), x ≠ lastCell a first → next' x = next x)
    (backward : ∀ x ∈ first ++ (rest ++ [b]), x ≠ firstCell rest b → prev' x = prev x) :
    Segment address next' prev' a (first ++ rest) b := by
  obtain ⟨fresh, others⟩ := List.nodup_cons.mp distinct
  induction first generalizing a with
  | nil =>
      have behind : b ∉ rest := fun mem => outside (List.mem_cons_of_mem _ mem)
      refine segment.tail others behind fromLast toFirst (fun x mem => ?_) backward
      have inner : x ≠ a := fun same => fresh (same ▸ List.mem_cons_of_mem _ mem)
      exact forward x (List.mem_cons_of_mem _ mem) inner
  | cons other more ih =>
      rw [lastCell_cons] at fromLast toFirst forward
      obtain ⟨otherFresh, inner⟩ := List.nodup_cons.mp others
      have early : a ≠ lastCell other more := by
        intro same
        have mem := lastCell_mem other more
        rw [← same] at mem
        exact fresh (List.mem_append_left _ mem)
      have late : other ≠ firstCell rest b := by
        intro same
        have mem := firstCell_mem rest b
        rw [← same] at mem
        rcases List.mem_cons.mp mem with rfl | mem
        · exact outside List.mem_cons_self
        · exact otherFresh (List.mem_append_right _ (List.mem_cons_of_mem _ mem))
      refine ⟨⟨(forward a List.mem_cons_self early).trans segment.1.1,
        (backward other List.mem_cons_self late).trans segment.1.2⟩, ?_⟩
      exact ih segment.2 others (fun mem => outside (List.mem_cons_of_mem _ mem)) fromLast toFirst
        (fun x mem => forward x (List.mem_cons_of_mem _ mem))
        (fun x mem => backward x (List.mem_cons_of_mem _ mem)) otherFresh inner

/-- The link behind a cell of the segment leads to a cell that links back. -/
theorem mirror_next (segment : Segment address next prev a cells b) {x : A} (mem : x ∈ a :: cells) :
    ∃ y ∈ cells ++ [b], next x = address y ∧ prev y = address x := by
  induction cells generalizing a with
  | nil =>
      obtain rfl := List.mem_singleton.mp mem
      exact ⟨b, by simp, segment⟩
  | cons cell rest ih =>
      rcases List.mem_cons.mp mem with rfl | mem
      · exact ⟨cell, by simp, segment.1⟩
      · obtain ⟨y, inside, links⟩ := ih segment.2 mem
        exact ⟨y, List.mem_cons_of_mem _ inside, links⟩

theorem mirror_prev (segment : Segment address next prev a cells b) {y : A} (mem : y ∈ cells ++ [b]) :
    ∃ x ∈ a :: cells, next x = address y ∧ prev y = address x := by
  induction cells generalizing a with
  | nil =>
      obtain rfl := List.mem_singleton.mp mem
      exact ⟨a, by simp, segment⟩
  | cons cell rest ih =>
      rcases List.mem_cons.mp mem with rfl | mem
      · exact ⟨a, by simp, segment.1⟩
      · obtain ⟨x, inside, links⟩ := ih segment.2 mem
        exact ⟨x, List.mem_cons_of_mem _ inside, links⟩

end Segment

end Foundation
