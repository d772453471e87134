import Mathlib.Data.List.Forall2
import Mathlib.Data.List.TakeWhile
import BandwidthLimiter.Launcher.Resilience

namespace BandwidthLimiter
open Foundation

/-- The maximal runs of characters that are no white space. -/
def runs (text : List Char) : List (List Char) := (text.splitOnP isBlank).filter (· ≠ [])

/-- The arguments that `parse` finds: behind trailing white space, it finds one more, empty one. -/
def arguments (text : List Char) : List (List Char) :=
  runs text ++ if text.getLast?.any isBlank then [[]] else []

section Words

variable {blanks run rest : List Char}

theorem runs_blanks (blank : ∀ c ∈ blanks, isBlank c = true) (text : List Char) :
    runs (blanks ++ text) = runs text := by
  induction blanks with
  | nil => rfl
  | cons c others ih =>
      have first : isBlank c = true := blank c (by simp)
      rw [← ih fun d mem => blank d (by simp [mem])]
      simp [runs, List.splitOnP_cons_eq_if_modifyHead, first]

/-- The first run of a text that starts with it. -/
theorem runs_cons (solid : ∀ c ∈ run, isBlank c = false) (full : run ≠ [])
    (ends : ∀ c ∈ rest.head?, isBlank c = true) : runs (run ++ rest) = run :: runs rest := by
  cases rest with
  | nil =>
      rw [List.append_nil, runs, List.splitOnP_eq_singleton solid]
      simp [runs, full]
  | cons c others =>
      have space : isBlank c = true := ends c rfl
      rw [runs, List.splitOnP_append_cons_of_forall_mem solid c space]
      simp [runs, List.splitOnP_cons_eq_if_modifyHead, space, full]

/-- One round of the outer loop takes one argument. -/
theorem arguments_cons (blank : ∀ c ∈ blanks, isBlank c = true)
    (solid : ∀ c ∈ run, isBlank c = false) (ends : ∀ c ∈ rest.head?, isBlank c = true)
    (full : blanks ++ run ≠ []) (empty : run = [] → rest = []) :
    arguments (blanks ++ (run ++ rest)) = run :: arguments rest := by
  have nothing : runs [] = [] := rfl
  by_cases none : run = []
  · obtain rfl := empty none
    subst none
    have proper : blanks ≠ [] := by simpa using full
    have last : blanks.getLast?.any isBlank = true := by
      rw [List.getLast?_eq_some_getLast proper]
      exact blank _ (List.getLast_mem proper)
    rw [arguments, runs_blanks blank, List.append_nil, List.append_nil, last, nothing]
    rfl
  · have last : (blanks ++ (run ++ rest)).getLast?.any isBlank = rest.getLast?.any isBlank := by
      rw [List.getLast?_append, List.getLast?_append, List.getLast?_eq_some_getLast none]
      cases rest.getLast? with
      | none => simpa using solid _ (List.getLast_mem none)
      | some c => rfl
    rw [arguments, arguments, runs_blanks blank, runs_cons solid none ends, last]
    rfl

end Words

section Loops

variable {memory : Memory Char} {blanks run more text : List Char} {i k : Int} {fuel : Nat} {c : Char}

/-- The first loop writes NUL bytes over white space and stops behind it. -/
theorem blank_spec (stored : Stores memory.content i (blanks ++ c :: more))
    (blank : ∀ d ∈ blanks, isBlank d = true) (stop : isBlank c = false)
    (enough : blanks.length < fuel) :
    ∃ after, whileLoop blankBody fuel (memory, i) = some (after, i + blanks.length) ∧
      ∀ j, after.content j =
        if i ≤ j ∧ j < i + blanks.length then '\x00' else memory.content j := by
  induction blanks generalizing i memory fuel with
  | nil =>
      obtain ⟨fuel, rfl, -⟩ := exists_fuel enough
      have here : memory.content i = c := stored.1
      refine ⟨memory.load i, ?_, fun j => ?_⟩
      · rw [whileLoop_stop (by rw [blankBody, here, if_neg (by simp [stop])])]
        simp
      · rw [if_neg (by simp only [List.length_nil]; omega)]
        rfl
  | cons d rest ih =>
      obtain ⟨fuel, rfl, spare⟩ := exists_fuel enough
      have here : memory.content i = d := stored.1
      let marked := (memory.load i).store i '\x00'
      have tail : Stores marked.content (i + 1) (rest ++ c :: more) := by
        apply Stores.congr stored.2
        intro j low _
        exact if_neg (show j ≠ i by omega)
      obtain ⟨after, loop, content⟩ := ih tail (fun e mem => blank e (by simp [mem])) spare
      rw [behind_cons i d rest] at loop content
      refine ⟨after, ?_, fun j => ?_⟩
      · rw [whileLoop_next (by rw [blankBody, here, if_pos (blank d (by simp))])]
        exact loop
      · rw [content j]
        have length : 0 < ((d :: rest).length : Int) := by simp
        by_cases first : j = i
        · subst first
          rw [if_neg (by omega), if_pos (by omega)]
          exact if_pos rfl
        · by_cases inside : i ≤ j ∧ j < i + ((d :: rest).length : Int)
          · rw [if_pos (by omega), if_pos inside]
          · rw [if_neg (by omega), if_neg inside]
            exact if_neg first

/-- The second loop stops behind the argument. -/
theorem argument_spec (stored : Stores memory.content i (run ++ c :: more))
    (solid : ∀ d ∈ run, isBlank d = false ∧ d ≠ '\x00') (stop : c = '\x00' ∨ isBlank c = true)
    (enough : run.length < fuel) :
    ∃ after, whileLoop argumentBody fuel (memory, i) = some (after, i + run.length) ∧
      after.content = memory.content := by
  induction run generalizing i memory fuel with
  | nil =>
      obtain ⟨fuel, rfl, -⟩ := exists_fuel enough
      have here : memory.content i = c := stored.1
      refine ⟨memory.load i, ?_, rfl⟩
      have ends : ¬(c ≠ '\x00' ∧ isBlank c = false) := by
        rcases stop with rfl | blank
        · simp
        · simp [blank]
      rw [whileLoop_stop (by rw [argumentBody, here, if_neg ends])]
      simp
  | cons d rest ih =>
      obtain ⟨fuel, rfl, spare⟩ := exists_fuel enough
      have here : memory.content i = d := stored.1
      have tail : Stores (memory.load i).content (i + 1) (rest ++ c :: more) := stored.2
      obtain ⟨after, loop, kept⟩ := ih tail (fun e mem => solid e (by simp [mem])) spare
      rw [behind_cons i d rest] at loop
      have visible := solid d (by simp)
      refine ⟨after, ?_, kept⟩
      rw [whileLoop_next (by rw [argumentBody, here, if_pos ⟨visible.2, visible.1⟩])]
      exact loop

end Loops

/-- The parse leaves the arguments in the line, and pointers to them in the array from `k` on. -/
structure Parsed (before after : Memory Char) (argvBefore argvAfter : Memory (Option Int))
    (i k : Int) (text : List Char) (pointers : List Int) : Prop where
  strings : List.Forall₂ (fun p argument => Stores after.content p (argument ++ ['\x00'])) pointers
    (arguments text)
  array : Stores argvAfter.content k (pointers.map some ++ [none])
  written : ∀ j, j ∈ argvAfter.touched ↔
    j ∈ argvBefore.touched ∨ k ≤ j ∧ j ≤ k + (arguments text).length
  front : ∀ j < i, after.content j = before.content j
  argvFront : ∀ j < k, argvAfter.content j = argvBefore.content j
  cut : (∀ c ∈ text.head?, isBlank c = true) → after.content i = '\x00'

section Parse

variable {memory : Memory Char} {argv2 : Memory (Option Int)} {text : List Char} {i k : Int} {fuel : Nat}

/-- A text starts with white space and a run that ends at white space or at the end of the text. -/
structure Words (text blanks run rest : List Char) : Prop where
  split : text = blanks ++ (run ++ rest)
  blank : ∀ c ∈ blanks, isBlank c = true
  solid : ∀ c ∈ run, isBlank c = false
  ends : ∀ c ∈ rest.head?, isBlank c = true
  empty : run = [] → rest = []

theorem exists_words (text : List Char) : ∃ blanks run rest, Words text blanks run rest := by
  refine ⟨text.takeWhile isBlank, (text.dropWhile isBlank).takeWhile (!isBlank ·),
    (text.dropWhile isBlank).dropWhile (!isBlank ·), by simp, ?_, ?_, ?_, ?_⟩
  · exact fun c mem => List.mem_takeWhile_imp mem
  · exact fun c mem => by simpa using List.mem_takeWhile_imp mem
  · intro c mem
    have stopped := List.head?_dropWhile_not (!isBlank ·) (text.dropWhile isBlank)
    rw [Option.mem_def.mp mem] at stopped
    simpa using stopped
  · intro none
    have stopped := List.head?_dropWhile_not isBlank text
    cases behind : text.dropWhile isBlank with
    | nil => rfl
    | cons c others =>
        rw [behind] at stopped none
        simp only [List.head?_cons] at stopped
        simp [stopped] at none

namespace Words

variable {blanks run rest : List Char}

theorem full (words : Words text blanks run rest) (proper : text ≠ []) : blanks ++ run ≠ [] := by
  intro none
  obtain ⟨rfl, rfl⟩ := List.append_eq_nil_iff.mp none
  exact proper (by rw [words.split, words.empty rfl]; rfl)

/-- The white space in front stops at a byte that is none. -/
theorem behindBlanks (words : Words text blanks run rest) :
    ∃ c more, run ++ (rest ++ ['\x00']) = c :: more ∧ isBlank c = false := by
  cases run with
  | nil =>
      rw [words.empty rfl]
      exact ⟨'\x00', [], rfl, rfl⟩
  | cons c more => exact ⟨c, _, rfl, words.solid c (by simp)⟩

/-- The run stops at white space or at the terminator. -/
theorem behindRun (words : Words text blanks run rest) :
    ∃ c more, rest ++ ['\x00'] = c :: more ∧ (c = '\x00' ∨ isBlank c = true) := by
  have ends := words.ends
  cases rest with
  | nil => exact ⟨'\x00', [], rfl, .inl rfl⟩
  | cons c more => exact ⟨c, _, rfl, .inr (ends c rfl)⟩

theorem blanks_ne_nil (words : Words text blanks run rest) (proper : text ≠ [])
    (first : ∀ c ∈ text.head?, isBlank c = true) : blanks ≠ [] := by
  rintro rfl
  have full := words.full proper
  obtain ⟨c, more, rfl⟩ := List.exists_cons_of_ne_nil (by simpa using full)
  have space := first c (by simp [words.split])
  rw [words.solid c (by simp)] at space
  cases space

end Words

/-- Every command but the empty one has an argument. -/
theorem arguments_ne_nil (proper : text ≠ []) : arguments text ≠ [] := by
  obtain ⟨blanks, run, rest, words⟩ := exists_words text
  rw [words.split,
    arguments_cons words.blank words.solid words.ends (words.full proper) words.empty]
  exact List.cons_ne_nil run _

/-- The parse of the rest of a text extends to the word in front of it. -/
theorem Parsed.cons {blanks run rest : List Char} {middle after : Memory Char}
    {argvAfter : Memory (Option Int)} {pointers : List Int} (words : Words text blanks run rest)
    (proper : text ≠ [])
    (stored : Stores middle.content (i + blanks.length) (run ++ (rest ++ ['\x00'])))
    (content : ∀ j, middle.content j =
      if i ≤ j ∧ j < i + blanks.length then '\x00' else memory.content j)
    (later : Parsed middle after (argv2.store k (some (i + blanks.length))) argvAfter
      (i + blanks.length + run.length) (k + 1) rest pointers) :
    Parsed memory after argv2 argvAfter i k text ((i + blanks.length) :: pointers) := by
  have order : arguments text = run :: arguments rest := by
    rw [words.split]
    exact arguments_cons words.blank words.solid words.ends (words.full proper) words.empty
  have string : Stores after.content (i + blanks.length) (run ++ ['\x00']) :=
    stores_append.mpr ⟨(stores_append.mp stored).1.congr fun j _ high => later.front j high,
      later.cut words.ends, trivial⟩
  refine ⟨?_, ?_, ?_, ?_, ?_, ?_⟩
  · rw [order]
    exact .cons string later.strings
  · refine ⟨?_, later.array⟩
    rw [later.argvFront k (by omega)]
    exact if_pos rfl
  · intro j
    rw [later.written j, order, Memory.store_touched, List.mem_cons, List.length_cons, Nat.cast_succ]
    constructor
    · rintro ((rfl | old) | range)
      · exact .inr (by omega)
      · exact .inl old
      · exact .inr (by omega)
    · rintro (old | range)
      · exact .inl (.inr old)
      · by_cases here : j = k
        · exact .inl (.inl here)
        · exact .inr (by omega)
  · intro j low
    rw [later.front j (by omega), content j, if_neg (by omega)]
  · intro j low
    rw [later.argvFront j (by omega)]
    exact if_neg (show j ≠ k by omega)
  · intro first
    have length := List.length_pos_iff.mpr (words.blanks_ne_nil proper first)
    rw [later.front i (by omega), content i, if_pos (by omega)]

/-- The parse returns and finds the arguments of the text. -/
theorem parse_spec (stored : Stores memory.content i (text ++ ['\x00'])) (plain : '\x00' ∉ text)
    (enough : text.length + 1 < fuel) :
    ∃ after argvAfter pointers, parse fuel memory i argv2 k = some (after, argvAfter) ∧
      Parsed memory after argv2 argvAfter i k text pointers := by
  induction size : text.length using Nat.strong_induction_on generalizing memory text i k argv2 fuel with
  | h length ih =>
      obtain ⟨fuel, rfl, spare⟩ := exists_fuel enough
      by_cases proper : text = []
      · subst proper
        have final : memory.content i = '\x00' := stored.1
        refine ⟨memory.load i, argv2.store k none, [], ?_, .nil, ⟨if_pos rfl, trivial⟩, ?_,
          fun _ _ => rfl, ?_, fun _ => final⟩
        · simp [parse, final]
        · intro j
          have none : arguments [] = [] := rfl
          rw [Memory.store_touched, List.mem_cons, none, List.length_nil, Nat.cast_zero]
          constructor
          · rintro (rfl | old)
            · exact .inr (by omega)
            · exact .inl old
          · rintro (old | range)
            · exact .inr old
            · exact .inl (by omega)
        · exact fun j low => if_neg (show j ≠ k by omega)
      · obtain ⟨blanks, run, rest, words⟩ := exists_words text
        obtain ⟨c, more, front, notBlank⟩ := words.behindBlanks
        obtain ⟨d, others, back, stop⟩ := words.behindRun
        have lengths : text.length = blanks.length + (run.length + rest.length) := by
          rw [words.split, List.length_append, List.length_append]
        have visible : ∀ e ∈ text, e ≠ '\x00' := fun e mem same => plain (same ▸ mem)
        have shorter : rest.length < text.length := by
          have full := List.length_pos_iff.mpr (words.full proper)
          rw [List.length_append] at full
          omega
        have first : memory.content i ≠ '\x00' := by
          obtain ⟨e, tail, whole⟩ := List.exists_cons_of_ne_nil proper
          rw [whole] at stored
          rw [stored.1]
          exact visible e (by simp [whole])
        have whole : Stores (memory.load i).content i (blanks ++ (run ++ (rest ++ ['\x00']))) := by
          rw [words.split, List.append_assoc, List.append_assoc] at stored
          exact stored
        obtain ⟨middle, skip, content⟩ :=
          blank_spec (front ▸ whole) words.blank notBlank (show blanks.length < fuel by omega)
        have tail : Stores middle.content (i + blanks.length) (run ++ (rest ++ ['\x00'])) := by
          apply (stores_append.mp whole).2.congr
          intro j low _
          rw [content j, if_neg (by omega)]
        obtain ⟨last, take, kept⟩ := argument_spec (back ▸ tail)
          (fun e mem => ⟨words.solid e mem, visible e (by simp [words.split, mem])⟩) stop
          (show run.length < fuel by omega)
        have remains : Stores last.content (i + blanks.length + run.length) (rest ++ ['\x00']) := by
          rw [kept]
          exact (stores_append.mp tail).2
        obtain ⟨after, argvAfter, pointers, loop, later⟩ := ih rest.length (size ▸ shorter) remains
          (fun mem => visible _ (by simp [words.split, mem]) rfl)
          (show rest.length + 1 < fuel by omega) rfl
        refine ⟨after, argvAfter, (i + blanks.length) :: pointers, ?_, .cons words proper
          (kept ▸ tail) (fun j => by rw [kept]; exact content j) later⟩
        simp only [parse, if_pos first, skip, take, Option.bind_eq_bind, Option.bind_some]
        exact loop

theorem parse_mono {more : Nat} {result : Memory Char × Memory (Option Int)}
    (done : parse fuel memory i argv2 k = some result) (enough : fuel ≤ more) :
    parse more memory i argv2 k = some result := by
  induction fuel generalizing memory i argv2 k more with
  | zero => cases done
  | succ fuel ih =>
      obtain ⟨more, rfl, spare⟩ := exists_fuel enough
      rw [parse] at done ⊢
      by_cases first : memory.content i ≠ '\x00'
      · rw [if_pos first] at done ⊢
        simp only [Option.bind_eq_bind, Option.bind_eq_some_iff] at done ⊢
        obtain ⟨middle, skip, last, take, rest⟩ := done
        exact ⟨middle, whileLoop_mono skip spare, last, whileLoop_mono take spare, ih rest spare⟩
      · rwa [if_neg first] at done ⊢

end Parse

section Split

variable {content : Int → Char} {array : Int → Option Int} {text : List Char} {line : Int}

/-- The size of the argument array. -/
def argv2Size : Nat := 64

/-- The parse returns and stays inside the argument array; when the runs of the command fit, the
array holds exactly them, followed by NULL. -/
def SplitsCommand (content : Int → Char) (array : Int → Option Int) (line : Int) (text : List Char) :
    Prop :=
  ∃ fuel after argvAfter,
    parse fuel (.untouched content) line (.untouched array) 0 = some (after, argvAfter) ∧
    (∀ j ∈ argvAfter.touched, 0 ≤ j ∧ j < argv2Size) ∧
    ((runs text).length ≤ 63 → ∃ pointers, Stores argvAfter.content 0 (pointers.map some ++ [none]) ∧
      List.Forall₂ (fun p run => Stores after.content p (run ++ ['\x00'])) pointers (runs text))

/-- What every parse of the command leaves. -/
theorem SplitsCommand.parsed (stored : Stores content line (text ++ ['\x00'])) (plain : '\x00' ∉ text)
    (splits : SplitsCommand content array line text) :
    ∃ after argvAfter pointers,
      Parsed (.untouched content) after (.untouched array) argvAfter line 0 text pointers ∧
      (∀ j ∈ argvAfter.touched, 0 ≤ j ∧ j < argv2Size) ∧
      ((runs text).length ≤ 63 → ∃ others : List Int,
        Stores argvAfter.content 0 (others.map some ++ [none]) ∧ others.length = (runs text).length) := by
  obtain ⟨fuel, after, argvAfter, done, inside, held⟩ := splits
  have started : Stores (Memory.untouched content).content line (text ++ ['\x00']) := stored
  obtain ⟨other, otherArgv, pointers, run, parsed⟩ :
      ∃ other otherArgv pointers, parse (text.length + 2) (.untouched content) line
        (.untouched array) 0 = some (other, otherArgv) ∧ _ :=
    parse_spec started plain (Nat.lt_succ_self _)
  have same := fuel_unique (parse · _ line _ 0) parse_mono done run
  obtain ⟨rfl, rfl⟩ := Prod.mk.inj same
  refine ⟨after, argvAfter, pointers, parsed, inside, fun few => ?_⟩
  obtain ⟨others, array, strings⟩ := held few
  exact ⟨others, array, strings.length_eq⟩

/-- An array with one more pointer is another array. -/
theorem array_unique {cells : Int → Option Int} {pointers others : List Int}
    (longer : Stores cells 0 (pointers.map some ++ [none]))
    (shorter : Stores cells 0 (others.map some ++ [none])) (length : pointers.length = others.length + 1) :
    False := by
  obtain rfl | ⟨front, last, rfl⟩ := List.eq_nil_or_concat' pointers
  · cases length
  · rw [List.map_append, List.append_assoc] at longer
    have size : front.length = others.length := by simpa using length
    have pointer := (stores_append.mp longer).2.1
    have null := (stores_append.mp shorter).2.1
    rw [List.length_map, size] at pointer
    rw [List.length_map, pointer] at null
    cases null

theorem SplitsCommand.few (stored : Stores content line (text ++ ['\x00'])) (plain : '\x00' ∉ text)
    (splits : SplitsCommand content array line text) : (runs text).length ≤ 63 := by
  obtain ⟨after, argvAfter, pointers, parsed, inside, -⟩ := splits.parsed stored plain
  have last := (inside _ ((parsed.written _).mpr (.inr ⟨by omega, le_refl _⟩))).2
  rw [arguments, List.length_append, argv2Size] at last
  omega

/-- White space at the end gives one more argument. -/
theorem SplitsCommand.solid (stored : Stores content line (text ++ ['\x00'])) (plain : '\x00' ∉ text)
    (splits : SplitsCommand content array line text) : ∀ c ∈ text.getLast?, isBlank c = false := by
  intro c mem
  obtain ⟨after, argvAfter, pointers, parsed, -, held⟩ := splits.parsed stored plain
  cases blank : isBlank c with
  | false => rfl
  | true =>
      obtain ⟨others, array, size⟩ := held (splits.few stored plain)
      have trailing : text.getLast?.any isBlank = true := by
        rw [Option.mem_def.mp mem]
        exact blank
      have length := parsed.strings.length_eq
      rw [arguments, trailing, if_pos rfl, List.length_append, List.length_singleton, ← size] at length
      exact (array_unique parsed.array array length).elim

/-- The parse splits exactly the commands of at most 63 runs that do not end with white space. -/
theorem parse_splits_iff (stored : Stores content line (text ++ ['\x00'])) (plain : '\x00' ∉ text) :
    SplitsCommand content array line text ↔
      (runs text).length ≤ 63 ∧ ∀ c ∈ text.getLast?, isBlank c = false := by
  constructor
  · exact fun splits => ⟨splits.few stored plain, splits.solid stored plain⟩
  · rintro ⟨few, solid⟩
    have started : Stores (Memory.untouched content).content line (text ++ ['\x00']) := stored
    obtain ⟨after, argvAfter, pointers, run, parsed⟩ :
        ∃ after argvAfter pointers, parse (text.length + 2) (.untouched content) line
          (.untouched array) 0 = some (after, argvAfter) ∧ _ :=
      parse_spec started plain (Nat.lt_succ_self _)
    have order : arguments text = runs text := by
      have trailing : text.getLast?.any isBlank = false := by
        cases last : text.getLast? with
        | none => rfl
        | some c => exact solid c last
      rw [arguments, trailing]
      simp
    refine ⟨_, after, argvAfter, run, ?_, fun _ => ⟨pointers, parsed.array, order ▸ parsed.strings⟩⟩
    intro j mem
    have range := ((parsed.written j).mp mem).resolve_left nofun
    rw [order] at range
    simp only [argv2Size]
    omega

theorem listing_splits :
    SplitsCommand (stringAt "ls  -l".toList) (fun _ => none) 0 "ls  -l".toList := by
  have letter : "ls  -l".toList.getLast? = some 'l' := by decide
  refine (parse_splits_iff (stringAt_stores [] _) (by decide)).mpr ⟨by decide, fun c last => ?_⟩
  obtain rfl : 'l' = c := Option.some.inj (letter.symm.trans last)
  rfl

/-- A space at the end of the command makes an empty argument. -/
theorem trailingSpace_not_splits : (runs "ls ".toList).length ≤ 63 ∧
    ¬SplitsCommand (stringAt "ls ".toList) (fun _ => none) 0 "ls ".toList := by
  refine ⟨by decide, fun splits => ?_⟩
  have last := splits.solid (stringAt_stores [] _) (by decide) ' ' (by decide)
  cases last

end Split

end BandwidthLimiter
