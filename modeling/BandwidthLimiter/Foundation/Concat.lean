import BandwidthLimiter.Foundation.Fuel
import BandwidthLimiter.Foundation.Memory

namespace Foundation

/-- One round of the search for the end of a string. -/
def endBody (state : Memory Char × Int) : (Memory Char × Int) ⊕ (Memory Char × Int) :=
  let (memory, position) := state
  if memory.content position ≠ '\x00' then .inl (memory.load position, position + 1)
  else .inr (memory.load position, position)

/-- A text and its NUL byte, from a position on. -/
def storeText (memory : Memory Char) (position : Int) : List Char → Memory Char
  | [] => memory.store position '\x00'
  | c :: rest => storeText (memory.store position c) (position + 1) rest

/-- The text goes behind the string at position 0. -/
def strcat (fuel : Nat) (memory : Memory Char) (text : List Char) : Option (Memory Char) := do
  let (memory, last) ← whileLoop endBody fuel (memory, 0)
  return storeText memory last text

/-- The string from a position on. -/
def readText : Nat → Memory Char → Int → Option (List Char × Memory Char)
  | 0, _, _ => none
  | fuel + 1, memory, position =>
      let c := memory.content position
      let memory := memory.load position
      if c = '\x00' then some ([], memory)
      else (readText fuel memory (position + 1)).map fun result => (c :: result.1, result.2)

section Texts

variable {memory : Memory Char} {i : Int} {text front : List Char} {fuel : Nat}

/-- A part of a program touches exactly the positions of a string with its NUL byte. -/
def TouchesText (before after : Memory Char) (i : Int) (length : Nat) : Prop :=
  ∀ j, j ∈ after.touched ↔ j ∈ before.touched ∨ i ≤ j ∧ j ≤ i + length

theorem TouchesText.trans {first middle last : Memory Char} {length more : Nat}
    (before : TouchesText first middle i length) (after : TouchesText middle last i more)
    (longer : length ≤ more) : TouchesText first last i more := by
  intro j
  rw [after j, before j]
  constructor
  · rintro ((old | inside) | inside)
    · exact .inl old
    · exact .inr ⟨inside.1, by omega⟩
    · exact .inr inside
  · rintro (old | inside)
    · exact .inl (.inl old)
    · exact .inr inside

theorem storeText_spec (memory : Memory Char) (i : Int) (text : List Char) :
    Stores (storeText memory i text).content i (text ++ ['\x00']) ∧
      (∀ j < i, (storeText memory i text).content j = memory.content j) ∧
      TouchesText memory (storeText memory i text) i text.length := by
  induction text generalizing memory i with
  | nil =>
      refine ⟨⟨if_pos rfl, trivial⟩, fun j low => if_neg (show j ≠ i by omega), fun j => ?_⟩
      rw [storeText, Memory.store_touched, List.mem_cons, List.length_nil]
      grind
  | cons c rest ih =>
      obtain ⟨stored, front, touched⟩ := ih (memory.store i c) (i + 1)
      refine ⟨⟨(front i (by omega)).trans (if_pos rfl), stored⟩, fun j low => ?_, fun j => ?_⟩
      · exact (front j (by omega)).trans (if_neg (show j ≠ i by omega))
      · rw [storeText, touched j, Memory.store_touched, List.mem_cons, List.length_cons]
        grind

/-- The search stops at the NUL byte. -/
theorem endBody_spec (stored : Stores memory.content i (text ++ ['\x00'])) (plain : '\x00' ∉ text)
    (enough : text.length < fuel) :
    ∃ after, whileLoop endBody fuel (memory, i) = some (after, i + text.length) ∧
      after.content = memory.content ∧ TouchesText memory after i text.length := by
  induction text generalizing memory i fuel with
  | nil =>
      obtain ⟨fuel, rfl, -⟩ := exists_fuel enough
      have final : memory.content i = '\x00' := stored.1
      refine ⟨memory.load i, ?_, rfl, fun j => ?_⟩
      · rw [whileLoop_stop (by rw [endBody, final, if_neg (by simp)])]
        simp
      · rw [Memory.load_touched, List.mem_cons, List.length_nil]
        grind
  | cons c rest ih =>
      obtain ⟨fuel, rfl, spare⟩ := exists_fuel enough
      have here : memory.content i = c := stored.1
      have visible : c ≠ '\x00' := fun same => plain (same ▸ List.mem_cons_self)
      have tail : Stores (memory.load i).content (i + 1) (rest ++ ['\x00']) := stored.2
      obtain ⟨after, loop, kept, touched⟩ :=
        ih tail (fun mem => plain (List.mem_cons_of_mem c mem)) spare
      rw [behind_cons i c rest] at loop
      refine ⟨after, ?_, kept, fun j => ?_⟩
      · rw [whileLoop_next (by rw [endBody, here, if_pos visible])]
        exact loop
      · rw [touched j, Memory.load_touched, List.mem_cons, List.length_cons]
        grind

/-- The string with the text behind it, and the positions that this touches. -/
theorem strcat_spec (stored : Stores memory.content 0 (front ++ ['\x00'])) (plain : '\x00' ∉ front)
    (enough : front.length < fuel) (text : List Char) :
    ∃ after, strcat fuel memory text = some after ∧
      Stores after.content 0 ((front ++ text) ++ ['\x00']) ∧
      TouchesText memory after 0 (front ++ text).length := by
  obtain ⟨middle, loop, kept, found⟩ := endBody_spec stored plain enough
  obtain ⟨behind, before, touched⟩ := storeText_spec middle (0 + front.length) text
  refine ⟨storeText middle (0 + front.length) text, ?_, ?_, fun j => ?_⟩
  · rw [strcat, loop]
    rfl
  · rw [List.append_assoc]
    refine stores_append.mpr ⟨?_, behind⟩
    apply (stores_append.mp stored).1.congr
    intro j _ high
    rw [before j (by omega), kept]
  · rw [touched j, found j, List.length_append]
    grind

theorem readText_spec (stored : Stores memory.content i (text ++ ['\x00'])) (plain : '\x00' ∉ text)
    (enough : text.length < fuel) :
    ∃ after, readText fuel memory i = some (text, after) ∧ TouchesText memory after i text.length := by
  induction text generalizing memory i fuel with
  | nil =>
      obtain ⟨fuel, rfl, -⟩ := exists_fuel enough
      have final : memory.content i = '\x00' := stored.1
      refine ⟨memory.load i, by simp [readText, final], fun j => ?_⟩
      rw [Memory.load_touched, List.mem_cons, List.length_nil]
      grind
  | cons c rest ih =>
      obtain ⟨fuel, rfl, spare⟩ := exists_fuel enough
      have here : memory.content i = c := stored.1
      have visible : c ≠ '\x00' := fun same => plain (same ▸ List.mem_cons_self)
      have tail : Stores (memory.load i).content (i + 1) (rest ++ ['\x00']) := stored.2
      obtain ⟨after, read, touched⟩ :=
        ih tail (fun mem => plain (List.mem_cons_of_mem c mem)) spare
      refine ⟨after, by simp [readText, here, visible, read], fun j => ?_⟩
      rw [touched j, Memory.load_touched, List.mem_cons, List.length_cons]
      grind

end Texts

end Foundation
