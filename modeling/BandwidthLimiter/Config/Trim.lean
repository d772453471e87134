import BandwidthLimiter.Foundation.Fuel
import BandwidthLimiter.Config.ParseConfig
import BandwidthLimiter.Foundation.Memory

namespace BandwidthLimiter
open Foundation

/-- One round of `strlen`; the result is the position of the final NUL byte. -/
def strlenBody (state : Memory Char × Int) : (Memory Char × Int) ⊕ (Memory Char × Int) :=
  let (memory, i) := state
  if memory.content i = '\x00' then .inr (memory.load i, i) else .inl (memory.load i, i + 1)

/-- One round of `while ( (isspace (*s2)) && (s2 >= s1) )`; the character is read first. -/
def trimRightBody (s1 : Int) (state : Memory Char × Int) :
    (Memory Char × Int) ⊕ (Memory Char × Int) :=
  let (memory, s2) := state
  if isspace (memory.content s2) = true ∧ s2 ≥ s1 then .inl (memory.load s2, s2 - 1)
  else .inr (memory.load s2, s2)

/-- One round of `while ( (isspace (*s1)) && (s1 < s2) )`. -/
def trimLeftBody (s2 : Int) (state : Memory Char × Int) :
    (Memory Char × Int) ⊕ (Memory Char × Int) :=
  let (memory, s1) := state
  if isspace (memory.content s1) = true ∧ s1 < s2 then .inl (memory.load s1, s1 + 1)
  else .inr (memory.load s1, s1)

/-- One round of `strcpy`, which copies from left to right. -/
def strcpyBody (state : Memory Char × Int × Int) : (Memory Char × Int × Int) ⊕ Memory Char :=
  let (memory, dst, src) := state
  let c := memory.content src
  let memory := (memory.load src).store dst c
  if c = '\x00' then .inr memory else .inl (memory, dst + 1, src + 1)

/-- The function `trim` with all its accesses to the memory around `s`. -/
def trimInMemory (fuel : Nat) (memory : Memory Char) (s : Int) : Option (Memory Char) := do
  let (memory, terminator) ← whileLoop strlenBody fuel (memory, s)
  let s1 := s
  let s2 := s + (terminator - s) - 1
  let (memory, s2) ← whileLoop (trimRightBody s1) fuel (memory, s2)
  let memory := memory.store (s2 + 1) '\x00'
  let (memory, s1) ← whileLoop (trimLeftBody s2) fuel (memory, s1)
  whileLoop strcpyBody fuel (memory, s, s1)

section Loops

variable {memory : Memory Char} {text : List Char} {i s dst src : Int} {fuel : Nat}

/-- The terminator behind a text is found by reading the text and the terminator. -/
theorem strlen_spec (stored : Stores memory.content i (text ++ ['\x00'])) (plain : '\x00' ∉ text)
    (enough : text.length < fuel) :
    ∃ after, whileLoop strlenBody fuel (memory, i) = some (after, i + text.length) ∧
      after.content = memory.content ∧ Touches i (i + text.length) memory after := by
  induction text generalizing i memory fuel with
  | nil =>
      obtain ⟨fuel, rfl, -⟩ := exists_fuel enough
      have final : memory.content i = '\x00' := stored.1
      refine ⟨memory.load i, ?_, rfl, .load memory (by simp) (by simp)⟩
      rw [whileLoop_stop (by rw [strlenBody, if_pos final])]
      simp
  | cons c rest ih =>
      obtain ⟨fuel, rfl, spare⟩ := exists_fuel enough
      obtain ⟨visible, plain⟩ := List.ne_and_not_mem_of_not_mem_cons plain
      have first : memory.content i = c := stored.1
      have tail : Stores (memory.load i).content (i + 1) (rest ++ ['\x00']) := stored.2
      obtain ⟨after, run, kept, touches⟩ := ih tail plain spare
      rw [behind_cons i c rest] at run touches
      refine ⟨after, ?_, kept, ?_⟩
      · rw [whileLoop_next (by rw [strlenBody, if_neg (by rw [first]; exact Ne.symm visible)])]
        exact run
      · apply (Touches.load memory (le_refl i) (by simp; omega)).trans
        exact touches.widen (by omega) (le_refl _)

/-- The lowest position that the right loop reads: it leaves the buffer when it never stops before. -/
def trimLow (s : Int) (text : List Char) : Int := if text.all isspace then s - 1 else s

/-- The right loop passes the white space at the end, and it reads below the buffer when the text is
nothing else. -/
theorem trimRight_spec (stored : Stores memory.content s text) (enough : text.length < fuel) :
    ∃ after, whileLoop (trimRightBody s) fuel (memory, s + text.length - 1) =
        some (after, s + (text.rdropWhile isspace).length - 1) ∧
      after.content = memory.content ∧ Touches (trimLow s text) (s + text.length) memory after ∧
      (text.all isspace → s - 1 ∈ after.touched) := by
  induction text using List.reverseRecOn generalizing memory fuel with
  | nil =>
      obtain ⟨fuel, rfl, -⟩ := exists_fuel enough
      refine ⟨memory.load (s - 1), ?_, rfl, .load memory (by simp [trimLow]) (by simp), by simp⟩
      rw [whileLoop_stop (by rw [trimRightBody, if_neg fun test => absurd test.2 (by simp)])]
      simp
  | append_singleton init c ih =>
      obtain ⟨fuel, rfl, spare⟩ := exists_fuel enough
      obtain ⟨front, last, -⟩ := stores_append.mp stored
      have size : s + ((init ++ [c]).length : Int) - 1 = s + init.length := by
        simp only [List.length_append, List.length_singleton]
        omega
      rw [size]
      by_cases space : isspace c = true
      · have room : init.length + 1 ≤ fuel := by simpa using spare
        have before : Stores (memory.load (s + init.length)).content s init := front
        obtain ⟨after, run, kept, touches, below⟩ := ih before room
        refine ⟨after, ?_, kept, ?_, fun all => below (by simpa [space] using all)⟩
        · rw [whileLoop_next (by rw [trimRightBody, if_pos ⟨by rw [last]; exact space, by omega⟩]),
            List.rdropWhile_concat_pos _ _ _ space]
          exact run
        · have low : trimLow s (init ++ [c]) = trimLow s init := by simp [trimLow, space]
          have inside : trimLow s init ≤ s := by
            rw [trimLow]
            split <;> omega
          rw [low]
          refine (Touches.load memory (by omega) (by simp)).trans (touches.widen (le_refl _) (by simp))
      · have low : trimLow s (init ++ [c]) = s := by simp [trimLow, space]
        refine ⟨memory.load (s + init.length), ?_, rfl, ?_, by simp [space]⟩
        · rw [whileLoop_stop (by rw [trimRightBody, if_neg fun test => space (by rw [← last]; exact test.1)]),
            List.rdropWhile_concat_neg _ _ _ space, size]
        · rw [low]
          exact .load memory (by omega) (by simp)

/-- The left loop passes the white space in front, when the text ends with another character. -/
theorem trimLeft_spec (stored : Stores memory.content i (text ++ ['\x00']))
    (ends : ∀ c ∈ text.getLast?, isspace c = false) (enough : text.length < fuel) :
    ∃ after, whileLoop (trimLeftBody (i + text.length - 1)) fuel (memory, i) =
        some (after, i + (text.takeWhile isspace).length) ∧
      after.content = memory.content ∧ Touches i (i + text.length) memory after := by
  induction text generalizing i memory fuel with
  | nil =>
      obtain ⟨fuel, rfl, -⟩ := exists_fuel enough
      have final : memory.content i = '\x00' := stored.1
      refine ⟨memory.load i, ?_, rfl, .load memory (le_refl i) (by simp)⟩
      rw [whileLoop_stop (by rw [trimLeftBody, if_neg (by simp [final])])]
      simp
  | cons c rest ih =>
      obtain ⟨fuel, rfl, spare⟩ := exists_fuel enough
      have first : memory.content i = c := stored.1
      have head : Touches i (i + ((c :: rest).length : Int)) memory (memory.load i) :=
        .load memory (le_refl i) (by simp only [List.length_cons]; omega)
      by_cases space : isspace c = true
      · have more : rest ≠ [] := by
          rintro rfl
          rw [ends c rfl] at space
          cases space
        have proper := List.length_pos_iff.mpr more
        have tail : Stores (memory.load i).content (i + 1) (rest ++ ['\x00']) := stored.2
        have tailEnds : ∀ d ∈ rest.getLast?, isspace d = false := by
          intro d mem
          rw [List.getLast?_cons_of_ne_nil more] at ends
          exact ends d mem
        obtain ⟨after, run, kept, touches⟩ := ih tail tailEnds spare
        rw [behind_cons i c rest] at run touches
        refine ⟨after, ?_, kept, head.trans (touches.widen (by omega) (le_refl _))⟩
        have inside : i < i + ((c :: rest).length : Int) - 1 := by
          simp only [List.length_cons]
          omega
        rw [whileLoop_next (by rw [trimLeftBody, if_pos ⟨by rw [first]; exact space, inside⟩]), run,
          List.takeWhile_cons_of_pos space]
        simp only [List.length_cons]
        congr 2
        omega
      · refine ⟨memory.load i, ?_, rfl, head⟩
        rw [whileLoop_stop (by rw [trimLeftBody, if_neg fun test => space (by rw [← first]; exact test.1)]),
          List.takeWhile_cons_of_neg space]
        simp

/-- The copy to the left moves a text over itself and keeps everything around its place. -/
theorem strcpy_spec (stored : Stores memory.content src (text ++ ['\x00'])) (plain : '\x00' ∉ text)
    (left : dst ≤ src) (enough : text.length < fuel) :
    ∃ after, whileLoop strcpyBody fuel (memory, dst, src) = some after ∧
      Stores after.content dst (text ++ ['\x00']) ∧
      (∀ j, j < dst ∨ dst + text.length < j → after.content j = memory.content j) ∧
      Touches dst (src + text.length) memory after := by
  induction text generalizing dst src memory fuel with
  | nil =>
      obtain ⟨fuel, rfl, -⟩ := exists_fuel enough
      have final : memory.content src = '\x00' := stored.1
      refine ⟨(memory.load src).store dst '\x00', ?_, by simp [Stores], ?_, ?_⟩
      · rw [whileLoop_stop]
        simp [strcpyBody, final]
      · intro j outside
        simp only [List.length_nil, Nat.cast_zero, Int.add_zero] at outside
        rw [Memory.store_content, if_neg (by omega)]
        rfl
      · exact (Touches.load memory left (by simp)).trans (.store _ _ (le_refl dst) (by simpa using left))
  | cons c rest ih =>
      obtain ⟨fuel, rfl, spare⟩ := exists_fuel enough
      obtain ⟨visible, plain⟩ := List.ne_and_not_mem_of_not_mem_cons plain
      have first : memory.content src = c := stored.1
      let moved := (memory.load src).store dst c
      have tail : Stores moved.content (src + 1) (rest ++ ['\x00']) := by
        apply Stores.congr stored.2
        intro j low _
        simp only [moved, Memory.store_content]
        rw [if_neg (by omega)]
        rfl
      obtain ⟨after, run, copied, around, touches⟩ := ih tail plain (show dst + 1 ≤ src + 1 by omega) spare
      rw [behind_cons src c rest] at touches
      have upper : src ≤ src + ((c :: rest).length : Int) := by omega
      refine ⟨after, ?_, ⟨?_, copied⟩, ?_, ?_⟩
      · rw [whileLoop_next]
        · exact run
        · simp only [strcpyBody, first, if_neg (Ne.symm visible), moved]
      · rw [around dst (by omega)]
        simp [moved]
      · intro j outside
        simp only [List.length_cons] at outside
        rw [around j (by omega)]
        simp only [moved, Memory.store_content]
        rw [if_neg (by omega)]
        rfl
      · refine ((Touches.load memory left upper).trans ?_).trans (touches.widen (by omega) (le_refl _))
        exact .store _ _ (le_refl dst) (by omega)

end Loops

section Whole

attribute [local instance] OverlappingCopy.leftToRight

variable {content : Int → Char} {text rest : List Char} {s : Int} {fuel more : Nat}
  {memory after : Memory Char}

theorem trimInMemory_mono (done : trimInMemory fuel memory s = some after) (enough : fuel ≤ more) :
    trimInMemory more memory s = some after := by
  simp only [trimInMemory, Option.bind_eq_bind, Option.bind_eq_some_iff] at done ⊢
  obtain ⟨first, length, second, right, third, left, copy⟩ := done
  exact ⟨first, whileLoop_mono length enough, second, whileLoop_mono right enough, third,
    whileLoop_mono left enough, whileLoop_mono copy enough⟩

/-- The text without the white space at its ends. -/
def stripped (text : List Char) : List Char := (text.rdropWhile isspace).dropWhile isspace

/-- The NUL byte behind the kept text cuts the buffer there. -/
theorem exists_cut (text rest : List Char) :
    ∃ junk, (text ++ '\x00' :: rest).set (text.rdropWhile isspace).length '\x00' =
      text.rdropWhile isspace ++ '\x00' :: junk := by
  obtain ⟨spaces, split⟩ := List.rdropWhile_prefix isspace text
  refine ⟨(spaces ++ '\x00' :: rest).tail, ?_⟩
  conv => lhs; arg 1; rw [← split, List.append_assoc]
  rw [List.set_append_right _ _ (le_refl _), Nat.sub_self]
  cases spaces <;> rfl

/-- The buffer that `trim` leaves, when its copy runs from left to right. -/
theorem trim_buffer (plain : '\x00' ∉ text) : trim (text ++ '\x00' :: rest) =
    stripped text ++ '\x00' :: ((text ++ '\x00' :: rest).set (text.rdropWhile isspace).length
      '\x00').drop ((stripped text).length + 1) := by
  have visible : '\x00' ∉ stripped text := fun mem =>
    plain ((List.rdropWhile_prefix ..).subset ((List.dropWhile_sublist _).subset mem))
  obtain ⟨junk, cut⟩ := exists_cut text rest
  have moved : ((text ++ '\x00' :: rest).set (text.rdropWhile isspace).length '\x00').drop
      ((text.rdropWhile isspace).takeWhile isspace).length = stripped text ++ '\x00' :: junk := by
    rw [cut, List.drop_append_of_le_length (List.takeWhile_prefix _).length_le, stripped]
    congr 1
    conv => lhs; arg 2; rw [← List.takeWhile_append_dropWhile (p := isspace)
      (l := text.rdropWhile isspace)]
    exact List.drop_left
  rw [trim, cString_append plain, strcpyDown_leftToRight, moved, strcpy, cString_append visible]

theorem trimLow_le (s : Int) (text : List Char) : trimLow s text ≤ s := by
  rw [trimLow]
  split <;> omega

/-- The accesses of `trim` leave the bytes of the trimmed buffer; they stay inside the text and its
terminator, except for one read below a text of white space. -/
theorem trimInMemory_spec (stored : Stores memory.content s (text ++ '\x00' :: rest))
    (plain : '\x00' ∉ text) :
    ∃ after, trimInMemory (text.length + 1) memory s = some after ∧
      Stores after.content s (trim (text ++ '\x00' :: rest)) ∧
      Touches (trimLow s text) (s + text.length) memory after ∧
      (text.all isspace → s - 1 ∈ after.touched) := by
  have low := trimLow_le s text
  have short := (List.rdropWhile_prefix isspace text).length_le
  have ending : ∀ c ∈ (text.rdropWhile isspace).getLast?, isspace c = false := by
    intro c mem
    obtain ⟨full, rfl⟩ := List.mem_getLast?_eq_getLast mem
    simpa using List.rdropWhile_last_not isspace text full
  have visible : '\x00' ∉ stripped text := fun mem =>
    plain ((List.rdropWhile_prefix ..).subset ((List.dropWhile_sublist _).subset mem))
  obtain ⟨junk, cut⟩ := exists_cut text rest
  have whole : trim (text ++ '\x00' :: rest) = _ := trim_buffer plain
  have ended : Stores memory.content s (text ++ ['\x00']) := by
    rw [show text ++ '\x00' :: rest = (text ++ ['\x00']) ++ rest by simp] at stored
    exact (stores_append.mp stored).1
  -- The two reading loops, and the NUL byte between them.
  obtain ⟨first, length, same, firstTouches⟩ := strlen_spec ended plain (Nat.lt_succ_self _)
  rw [← same] at stored
  obtain ⟨second, right, kept, secondTouches, below⟩ :=
    trimRight_spec (stores_append.mp stored).1 (Nat.lt_succ_self _)
  rw [← kept] at stored
  have marked := stored.set (text.rdropWhile isspace).length '\x00'
  have position : s + ((text.rdropWhile isspace).length : Int) - 1 + 1 =
      s + (text.rdropWhile isspace).length := by omega
  let third := second.store (s + (text.rdropWhile isspace).length) '\x00'
  have thirdStored : Stores third.content s ((text ++ '\x00' :: rest).set
      (text.rdropWhile isspace).length '\x00') := marked
  have keptStored : Stores third.content s (text.rdropWhile isspace ++ ['\x00']) := by
    rw [cut, List.append_cons] at thirdStored
    exact (stores_append.mp thirdStored).1
  obtain ⟨fourth, left, still, fourthTouches⟩ :=
    trimLeft_spec keptStored ending (Nat.lt_succ_of_le short)
  rw [← still] at thirdStored keptStored
  -- The copy moves the stripped text over the white space in front of it.
  have source : Stores fourth.content (s + ((text.rdropWhile isspace).takeWhile isspace).length)
      (stripped text ++ ['\x00']) := by
    have split : Stores fourth.content s ((text.rdropWhile isspace).takeWhile isspace ++
        (stripped text ++ ['\x00'])) := by
      rw [stripped, ← List.append_assoc, List.takeWhile_append_dropWhile]
      exact keptStored
    exact (stores_append.mp split).2
  have size : ((text.rdropWhile isspace).takeWhile isspace).length + (stripped text).length =
      (text.rdropWhile isspace).length := by
    rw [stripped, ← List.length_append, List.takeWhile_append_dropWhile]
  obtain ⟨after, copy, copied, around, lastTouches⟩ := strcpy_spec source visible
    (show s ≤ s + _ by omega) (show (stripped text).length < text.length + 1 by omega)
  have between : Touches (trimLow s text) (s + text.length) second third :=
    .store _ _ (by omega) (by omega)
  have fromThird : Touches (trimLow s text) (s + text.length) third after :=
    (fourthTouches.widen low (by omega)).trans (lastTouches.widen low (by omega))
  refine ⟨after, ?_, ?_, ?_, ?_⟩
  · simp only [trimInMemory, length, Option.bind_eq_bind, Option.bind_some, add_sub_cancel_left,
      right, position]
    rw [left]
    exact copy
  · rw [whole, List.append_cons]
    refine stores_append.mpr ⟨copied, ?_⟩
    have behind := Stores.drop thirdStored ((stripped text).length + 1)
    rw [List.length_append, List.length_singleton]
    exact behind.congr fun j low _ => around j (by omega)
  · exact (((firstTouches.widen low (le_refl _)).trans secondTouches).trans between).trans fromThird
  · exact fun all => fromThird.kept _ (between.kept _ (below all))

/-- The call returns, leaves the stripped text, and touches only the string with its terminator. -/
def TrimsInside (content : Int → Char) (s : Int) (text : List Char) : Prop :=
  ∃ fuel after, trimInMemory fuel (.untouched content) s = some after ∧
    (∀ i ∈ after.touched, s ≤ i ∧ i ≤ s + text.length) ∧
    Stores after.content s (stripped text ++ ['\x00'])

/-- On white space alone, the right loop reads the byte below the string. -/
theorem trim_readsBelow (stored : Stores content s (text ++ ['\x00'])) (plain : '\x00' ∉ text)
    (blank : text.all isspace) : ¬TrimsInside content s text := by
  rintro ⟨fuel, after, done, inside, -⟩
  have started : Stores (Memory.untouched content).content s (text ++ ['\x00']) := stored
  obtain ⟨other, run, -, -, below⟩ := trimInMemory_spec started plain
  obtain rfl := fuel_unique (trimInMemory · _ s) trimInMemory_mono done run
  have low := (inside _ (below blank)).1
  omega

/-- The call stays inside exactly the strings with a character that is no white space. -/
theorem trim_inside_iff (stored : Stores content s (text ++ ['\x00'])) (plain : '\x00' ∉ text) :
    TrimsInside content s text ↔ ∃ c ∈ text, isspace c = false := by
  constructor
  · intro inside
    by_contra none
    refine trim_readsBelow stored plain ?_ inside
    rw [List.all_eq_true]
    intro c mem
    cases space : isspace c with
    | true => rfl
    | false => exact absurd ⟨c, mem, space⟩ none
  · rintro ⟨c, mem, visible⟩
    have started : Stores (Memory.untouched content).content s (text ++ ['\x00']) := stored
    obtain ⟨after, run, left, touches, -⟩ := trimInMemory_spec started plain
    have proper : ¬text.all isspace := fun all => by
      rw [List.all_eq_true.mp all c mem] at visible
      cases visible
    refine ⟨_, after, run, ?_, ?_⟩
    · intro i touched
      have within := (touches.within i touched).resolve_left nofun
      rwa [trimLow, if_neg proper] at within
    · have whole : trim (text ++ ['\x00']) = _ := trim_buffer plain
      rw [whole, List.append_cons] at left
      exact (stores_append.mp left).1

end Whole

section WhiteSpace

theorem letter_inside : TrimsInside (stringAt [' ', 'a', ' ']) 0 [' ', 'a', ' '] :=
  (trim_inside_iff (stringAt_stores [] _) (by decide)).mpr ⟨'a', by decide, by decide⟩

/-- A string of one space makes `trim` read the byte below it. -/
theorem space_outside : ¬TrimsInside (stringAt [' ']) 0 [' '] :=
  trim_readsBelow (stringAt_stores [] _) (by decide) (by decide)

end WhiteSpace

end BandwidthLimiter
