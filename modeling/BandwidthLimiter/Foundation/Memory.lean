import Mathlib.Algebra.Order.Ring.Int
import Mathlib.Tactic.Common

namespace Foundation

/-- A memory with the positions that a program has read or written. -/
structure Memory (A : Type) where
  content : Int → A
  touched : List Int

namespace Memory

variable {A : Type}

/-- The memory before a program. -/
def untouched (content : Int → A) : Memory A := ⟨content, []⟩

/-- A read of one position. -/
def load (memory : Memory A) (position : Int) : Memory A :=
  { memory with touched := position :: memory.touched }

/-- A write of one position. -/
def store (memory : Memory A) (position : Int) (value : A) : Memory A where
  content := fun i => if i = position then value else memory.content i
  touched := position :: memory.touched

@[simp] theorem load_content (memory : Memory A) (position : Int) :
    (memory.load position).content = memory.content := rfl

@[simp] theorem load_touched (memory : Memory A) (position : Int) :
    (memory.load position).touched = position :: memory.touched := rfl

@[simp] theorem store_content (memory : Memory A) (position i : Int) (value : A) :
    (memory.store position value).content i = if i = position then value else memory.content i := rfl

@[simp] theorem store_touched (memory : Memory A) (position : Int) (value : A) :
    (memory.store position value).touched = position :: memory.touched := rfl

end Memory

variable {A : Type}

/-- The position behind a list does not depend on where it is counted from. -/
theorem behind_cons (start : Int) (value : A) (rest : List A) :
    start + 1 + (rest.length : Int) = start + ((value :: rest).length : Int) := by
  simp only [List.length_cons]
  omega

/-- The positions from a start on hold the entries of a list. -/
def Stores (content : Int → A) : Int → List A → Prop
  | _, [] => True
  | start, value :: rest => content start = value ∧ Stores content (start + 1) rest

section Stores

variable {content other : Int → A} {start : Int} {first second list : List A}

theorem stores_append : Stores content start (first ++ second) ↔
    Stores content start first ∧ Stores content (start + first.length) second := by
  induction first generalizing start with
  | nil => simp [Stores]
  | cons value rest ih =>
      simp only [List.cons_append, Stores, ih, behind_cons start value rest, and_assoc]

/-- A stored list depends on its own positions only. -/
theorem Stores.congr (stored : Stores content start list)
    (same : ∀ i, start ≤ i → i < start + list.length → other i = content i) :
    Stores other start list := by
  induction list generalizing start with
  | nil => trivial
  | cons value rest ih =>
      simp only [List.length_cons] at same
      refine ⟨(same start (by omega) (by omega)).trans stored.1, ih stored.2 fun i low high => ?_⟩
      exact same i (by omega) (by omega)

theorem Stores.drop (stored : Stores content start list) (count : Nat) :
    Stores content (start + count) (list.drop count) := by
  induction count generalizing start list with
  | zero => simpa using stored
  | succ count ih =>
      cases list with
      | nil => trivial
      | cons value rest =>
          have shift : start + 1 + (count : Int) = start + ((count + 1 : Nat) : Int) := by omega
          have later := ih stored.2
          rwa [shift] at later

/-- A write changes one entry of a stored list. -/
theorem Stores.set (stored : Stores content start list) (index : Nat) (value : A) :
    Stores (fun i => if i = start + index then value else content i) start (list.set index value) := by
  induction list generalizing start index with
  | nil => trivial
  | cons first rest ih =>
      cases index with
      | zero =>
          refine ⟨by simp, stored.2.congr fun i low _ => ?_⟩
          simp only [Nat.cast_zero, Int.add_zero]
          rw [if_neg (by omega)]
      | succ index =>
          have later := ih stored.2 index
          have shift : start + 1 + (index : Int) = start + ((index + 1 : Nat) : Int) := by omega
          rw [shift] at later
          exact ⟨(if_neg (show start ≠ start + ((index + 1 : Nat) : Int) by omega)).trans stored.1, later⟩

/-- Two lists of one length at one place are the same. -/
theorem Stores.unique (stored : Stores content start first) (again : Stores content start second)
    (same : first.length = second.length) : first = second := by
  induction first generalizing start second with
  | nil => exact (List.length_eq_zero_iff.mp same.symm).symm
  | cons value rest ih =>
      cases second with
      | nil => cases same
      | cons head tail =>
          obtain rfl : value = head := stored.1.symm.trans again.1
          rw [ih stored.2 again.2 (Nat.succ.inj same)]

end Stores

/-- A memory with a string at position 0. -/
def stringAt (text : List Char) (i : Int) : Char := text.getD i.toNat '\x00'

theorem stringAt_stores (front text : List Char) :
    Stores (stringAt (front ++ text)) front.length (text ++ ['\x00']) := by
  induction text generalizing front with
  | nil => simp [Stores, stringAt]
  | cons c rest ih =>
      have later := ih (front ++ [c])
      rw [← List.append_cons, List.length_append, List.length_singleton] at later
      exact ⟨by simp [stringAt], later⟩

/-- A part of a program touches positions in a range only. -/
structure Touches (low high : Int) (before after : Memory A) : Prop where
  kept : ∀ i ∈ before.touched, i ∈ after.touched
  within : ∀ i ∈ after.touched, i ∈ before.touched ∨ low ≤ i ∧ i ≤ high

namespace Touches

variable {low high wideLow wideHigh position : Int} {before middle after : Memory A}

theorem trans (first : Touches low high before middle) (second : Touches low high middle after) :
    Touches low high before after where
  kept i mem := second.kept i (first.kept i mem)
  within i mem := (second.within i mem).elim (first.within i) .inr

theorem widen (touches : Touches low high before after) (lower : wideLow ≤ low)
    (upper : high ≤ wideHigh) : Touches wideLow wideHigh before after where
  kept := touches.kept
  within i mem := (touches.within i mem).imp_right fun inside => by omega

/-- An access to one position of the range. -/
theorem access (memory : Memory A) (content : Int → A) (lower : low ≤ position)
    (upper : position ≤ high) :
    Touches low high memory ⟨content, position :: memory.touched⟩ where
  kept i mem := List.mem_cons_of_mem _ mem
  within i mem := by
    rcases List.mem_cons.mp mem with rfl | mem
    · exact .inr ⟨lower, upper⟩
    · exact .inl mem

theorem load (memory : Memory A) (lower : low ≤ position) (upper : position ≤ high) :
    Touches low high memory (memory.load position) :=
  access memory memory.content lower upper

theorem store (memory : Memory A) (value : A) (lower : low ≤ position) (upper : position ≤ high) :
    Touches low high memory (memory.store position value) :=
  access memory _ lower upper

end Touches

end Foundation
