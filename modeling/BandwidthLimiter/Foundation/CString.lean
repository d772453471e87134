import Mathlib.Algebra.Order.Ring.Int
import Mathlib.Data.List.DropRight
import Mathlib.Data.List.TakeWhile
import Mathlib.Tactic.Common

namespace Foundation

/-- The text of a buffer ends at its first NUL byte. -/
def cString (buffer : List Char) : List Char := buffer.takeWhile (· ≠ '\x00')

/-- The white space of the C locale. -/
def isspace (c : Char) : Bool := c ∈ [' ', '\t', '\n', '\x0b', '\x0c', '\r']

/-- A copy of at most `count` bytes, padded with NUL bytes. -/
def strncpy (source : List Char) (count : Nat) : List Char :=
  (cString source).take count ++ List.replicate (count - (cString source).length) '\x00'

/-- A copy over the first bytes of a buffer, with the final NUL byte. -/
def strcpy (buffer source : List Char) : List Char :=
  cString source ++ '\x00' :: buffer.drop ((cString source).length + 1)

/-- The buffer that `strcpy` leaves when it copies the text behind the first `shift` bytes to the start
of the same buffer and the two places overlap. The language leaves this open. -/
class OverlappingCopy where
  overlapped : (buffer : List Char) → (shift : Nat) → List Char

/-- The copy that reads and writes its bytes from left to right. -/
@[reducible] def OverlappingCopy.leftToRight : OverlappingCopy where
  overlapped buffer shift := strcpy buffer (buffer.drop shift)

/-- A copy of the text behind the first `shift` bytes to the start of its buffer. Without a shift it
changes nothing, and the places are apart when the text is shorter than the shift. -/
def strcpyDown [OverlappingCopy] (buffer : List Char) (shift : Nat) : List Char :=
  if shift = 0 ∨ (cString (buffer.drop shift)).length < shift then
    strcpy buffer (buffer.drop shift)
  else OverlappingCopy.overlapped buffer shift

/-- The next bytes of a stream, up to a newline or a count. -/
def chunk : Nat → List Char → List Char × List Char
  | 0, stream => ([], stream)
  | _ + 1, [] => ([], [])
  | count + 1, c :: stream =>
      if c = '\n' then ([c], stream)
      else (c :: (chunk count stream).1, (chunk count stream).2)

/-- One line of a stream for a buffer of at least two bytes; `none` at the end of the stream. -/
def fgets (size : Nat) (stream : List Char) : Option (List Char × List Char) :=
  if stream = [] then none else some (chunk (size - 2 + 1) stream)

/-- A token, the buffer after the call, and the position that the call saves. -/
structure Strtok where
  token : Option Nat
  buffer : List Char
  saved : Nat
  deriving DecidableEq, Repr

/-- The call skips delimiters and cuts the token at the next delimiter. -/
def strtok (delimiters buffer : List Char) (start : Nat) : Strtok :=
  let token := start + ((buffer.drop start).takeWhile (· ∈ delimiters)).length
  if cString (buffer.drop token) = [] then ⟨none, buffer, token⟩
  else
    let stop := token + ((cString (buffer.drop token)).takeWhile (· ∉ delimiters)).length
    if cString (buffer.drop stop) = [] then ⟨some token, buffer, stop⟩
    else ⟨some token, buffer.set stop '\x00', stop + 1⟩

/-- The sign and the digits of a decimal number, read as a long number that saturates. -/
def strtol (text : List Char) : Int :=
  let text := text.dropWhile isspace
  let number (digits : List Char) : Nat := Nat.ofDigitChars 10 (digits.takeWhile Char.isDigit) 0
  match text with
  | '-' :: digits => max (-2 ^ 63) (-number digits)
  | '+' :: digits => min (2 ^ 63 - 1) (number digits)
  | digits => min (2 ^ 63 - 1) (number digits)

/-- The long number, cut to 32 bits. -/
def atoi (text : List Char) : Int := (strtol text).bmod (2 ^ 32)

/-- The decimal digits of a number. -/
def decimal (value : Int) : List Char :=
  if value < 0 then '-' :: Nat.toDigits 10 value.natAbs else Nat.toDigits 10 value.natAbs

section Text

variable {text rest : List Char}

/-- A text without NUL bytes is read up to the NUL byte after it. -/
theorem cString_append (plain : '\x00' ∉ text) : cString (text ++ '\x00' :: rest) = text := by
  rw [cString, List.takeWhile_append_of_pos (by grind)]
  simp

theorem cString_append_of_notMem (plain : '\x00' ∉ text) (rest : List Char) :
    cString (text ++ rest) = text ++ cString rest :=
  List.takeWhile_append_of_pos (by grind)

theorem notMem_cString (buffer : List Char) : '\x00' ∉ cString buffer := by
  intro mem
  simpa using List.mem_takeWhile_imp mem

/-- A NUL byte cuts the text at its position. -/
theorem cString_set (buffer : List Char) (position : Nat) :
    cString (buffer.set position '\x00') = (cString buffer).take position := by
  induction buffer generalizing position with
  | nil => simp [cString]
  | cons c rest ih =>
      cases position with
      | zero => simp [cString]
      | succ position =>
          by_cases final : c = '\x00'
          · simp [cString, final]
          · simpa [cString, final] using ih position

/-- A copy without a shift leaves the text. -/
theorem strcpyDown_zero [OverlappingCopy] (buffer : List Char) :
    strcpyDown buffer 0 = strcpy buffer buffer := by
  simp [strcpyDown]

theorem strcpyDown_leftToRight (buffer : List Char) (shift : Nat) :
    @strcpyDown .leftToRight buffer shift = strcpy buffer (buffer.drop shift) := by
  unfold strcpyDown
  split <;> rfl

/-- Behind its text, a buffer has an empty text. -/
theorem cString_end (buffer : List Char) : cString (buffer.drop (cString buffer).length) = [] := by
  induction buffer with
  | nil => rfl
  | cons c rest ih =>
      by_cases final : c = '\x00'
      · simp [cString, final]
      · simpa [cString, final] using ih

/-- A copy that fits keeps the text. -/
theorem strncpy_fits {source : List Char} {count : Nat} (fits : (cString source).length < count) :
    ∃ padding, strncpy source count = cString source ++ '\x00' :: padding := by
  obtain ⟨padding, size⟩ := Nat.exists_eq_add_of_lt fits
  refine ⟨List.replicate padding '\x00', ?_⟩
  have room : count - (cString source).length = padding + 1 := by omega
  rw [strncpy, List.take_of_length_le (by omega), room, List.replicate_succ]

theorem cString_strncpy {source : List Char} {count : Nat}
    (fits : (cString source).length < count) : cString (strncpy source count) = cString source := by
  obtain ⟨padding, padded⟩ := strncpy_fits fits
  rw [padded, cString_append (notMem_cString source)]

end Text

section Streams

theorem chunk_length (count : Nat) (stream : List Char) :
    (chunk count stream).1.length + (chunk count stream).2.length = stream.length := by
  fun_induction chunk count stream with
  | case1 => simp
  | case2 => rfl
  | case3 => simp [Nat.add_comm]
  | case4 count c stream different ih => grind

variable {size : Nat} {stream line rest : List Char}

theorem fgets_eq_none : fgets size stream = none ↔ stream = [] := by
  unfold fgets
  split <;> simp_all

theorem fgets_rest_length (taken : fgets size stream = some (line, rest)) :
    rest.length < stream.length := by
  unfold fgets at taken
  split at taken
  · cases taken
  · rename_i full
    obtain ⟨c, tail, rfl⟩ := List.exists_cons_of_ne_nil full
    obtain rfl := congrArg Prod.snd (Option.some.inj taken)
    rw [chunk]
    split
    · simp
    · have size := chunk_length (size - 2) tail
      simp only [List.length_cons]
      omega

/-- The lines that a buffer of this size reads from a stream. -/
def linesOf (size : Nat) (stream : List Char) : List (List Char) :=
  match _taken : fgets size stream with
  | none => []
  | some (line, rest) => line :: linesOf size rest
termination_by stream.length
decreasing_by exact fgets_rest_length _taken

theorem linesOf_nil (size : Nat) : linesOf size [] = [] := by
  rw [linesOf]
  rfl

theorem linesOf_cons (taken : fgets size stream = some (line, rest)) :
    linesOf size stream = line :: linesOf size rest := by
  rw [linesOf]
  split
  · rename_i absent
    rw [taken] at absent
    cases absent
  · rename_i first tail present
    obtain ⟨rfl, rfl⟩ := Prod.mk.inj (Option.some.inj (taken.symm.trans present))
    rfl

theorem chunk_line (plain : '\n' ∉ line) {count : Nat} (short : line.length < count) :
    chunk count (line ++ '\n' :: rest) = (line ++ ['\n'], rest) := by
  induction line generalizing count with
  | nil =>
      obtain ⟨count, rfl⟩ := Nat.exists_eq_add_of_lt short
      rfl
  | cons c line ih =>
      obtain ⟨count, rfl⟩ := Nat.exists_eq_add_of_lt short
      obtain ⟨different, plain⟩ : c ≠ '\n' ∧ '\n' ∉ line := by grind
      rw [List.cons_append, chunk, if_neg different, ih plain (by grind)]
      rfl

theorem chunk_last (plain : '\n' ∉ line) {count : Nat} (short : line.length ≤ count) :
    chunk count line = (line, []) := by
  induction line generalizing count with
  | nil => cases count <;> rfl
  | cons c line ih =>
      obtain ⟨different, plain⟩ : c ≠ '\n' ∧ '\n' ∉ line := by grind
      cases count with
      | zero => simp at short
      | succ count => rw [chunk, if_neg different, ih plain (by simpa using short)]

/-- A short line is read as a whole, with its newline. -/
theorem linesOf_line (plain : '\n' ∉ line) (short : line.length + 1 < size) (rest : List Char) :
    linesOf size (line ++ '\n' :: rest) = (line ++ ['\n']) :: linesOf size rest := by
  apply linesOf_cons
  rw [fgets, if_neg (by simp), chunk_line plain (by omega)]

/-- The last line needs no newline. -/
theorem linesOf_last (plain : '\n' ∉ line) (short : line.length < size) (nonempty : line ≠ []) :
    linesOf size line = [line] := by
  have taken : fgets size line = some (line, []) := by
    rw [fgets, if_neg nonempty, chunk_last plain (by omega)]
  rw [linesOf_cons taken, linesOf_nil]

end Streams

section Tokens

variable {delimiters buffer front skip token rest : List Char} {start : Nat} {mark : Char}

/-- The delimiters, and then a token up to a mark, stand at a position of a buffer. -/
structure TokenAt (delimiters buffer : List Char) (start : Nat) (skip token : List Char)
    (mark : Char) (rest : List Char) : Prop where
  here : buffer.drop start = skip ++ (token ++ mark :: rest)
  skipped : ∀ c ∈ skip, c ∈ delimiters
  full : token ≠ []
  plain : ∀ c ∈ token, c ∉ delimiters ∧ c ≠ '\x00'

namespace TokenAt

/-- The call skips the delimiters before the token. -/
theorem skips (found : TokenAt delimiters buffer start skip token mark rest) :
    (buffer.drop start).takeWhile (· ∈ delimiters) = skip := by
  obtain ⟨c, tail, rfl⟩ := List.exists_cons_of_ne_nil found.full
  have other : c ∉ delimiters := (found.plain c (by simp)).1
  rw [found.here, List.takeWhile_append_of_pos (by simpa using found.skipped), List.cons_append,
    List.takeWhile_cons_of_neg (by simpa using other), List.append_nil]

theorem token_here (found : TokenAt delimiters buffer start skip token mark rest) :
    buffer.drop (start + skip.length) = token ++ mark :: rest := by
  rw [← List.drop_drop, found.here, List.drop_left]

theorem mark_here (found : TokenAt delimiters buffer start skip token mark rest) :
    buffer.drop (start + skip.length + token.length) = mark :: rest := by
  rw [← List.drop_drop, found.token_here, List.drop_left]

/-- The token ends before its mark. -/
theorem stops (found : TokenAt delimiters buffer start skip token mark rest)
    (cut : mark ∈ delimiters ∨ mark = '\x00') :
    (cString (buffer.drop (start + skip.length))).takeWhile (· ∉ delimiters) = token := by
  have bare : '\x00' ∉ token := fun mem => (found.plain _ mem).2 rfl
  have whole : ∀ c ∈ token, decide (c ∉ delimiters) = true := fun c mem =>
    decide_eq_true (found.plain c mem).1
  rw [found.token_here, cString_append_of_notMem bare, List.takeWhile_append_of_pos whole]
  rcases cut with cut | rfl
  · unfold cString
    rw [List.takeWhile_cons]
    split
    · rw [List.takeWhile_cons_of_neg (by simpa using cut), List.append_nil]
    · simp
  · simp [cString]

theorem cString_ne_nil (found : TokenAt delimiters buffer start skip token mark rest) :
    cString (buffer.drop (start + skip.length)) ≠ [] := by
  have bare : '\x00' ∉ token := fun mem => (found.plain _ mem).2 rfl
  rw [found.token_here, cString_append_of_notMem bare]
  simp [found.full]

/-- The token ends at a delimiter, and the call puts a NUL byte there. -/
theorem strtok_mark (found : TokenAt delimiters buffer start skip token mark rest)
    (cut : mark ∈ delimiters) (visible : mark ≠ '\x00') :
    strtok delimiters buffer start =
      ⟨some (start + skip.length), buffer.set (start + skip.length + token.length) '\x00',
        start + skip.length + token.length + 1⟩ := by
  have more : cString (mark :: rest) ≠ [] := by simp [cString, visible]
  simp only [strtok, found.skips, found.stops (.inl cut), found.mark_here,
    if_neg found.cString_ne_nil, if_neg more]

/-- The token ends with the text, and the buffer stays as it is. -/
theorem strtok_end (found : TokenAt delimiters buffer start skip token '\x00' rest) :
    strtok delimiters buffer start =
      ⟨some (start + skip.length), buffer, start + skip.length + token.length⟩ := by
  have done : cString ('\x00' :: rest) = [] := rfl
  simp only [strtok, found.skips, found.stops (.inr rfl), found.mark_here,
    if_neg found.cString_ne_nil, if_pos done]

/-- A cut puts a NUL byte behind the token. -/
theorem cut_here (found : TokenAt delimiters buffer start skip token mark rest) :
    (buffer.set (start + skip.length + token.length) '\x00').drop (start + skip.length) =
      token ++ '\x00' :: rest := by
  rw [List.drop_set, if_neg (by omega), found.token_here, Nat.add_sub_cancel_left,
    List.set_append_right _ _ (le_refl _), Nat.sub_self, List.set_cons_zero]

/-- A cut keeps the bytes behind the mark. -/
theorem cut_behind (found : TokenAt delimiters buffer start skip token mark rest) :
    (buffer.set (start + skip.length + token.length) '\x00').drop
      (start + skip.length + token.length + 1) = rest := by
  rw [List.drop_set_of_lt (Nat.lt_add_one _), ← List.drop_drop, found.mark_here]
  rfl

/-- The text of a cut token. -/
theorem cString_cut (found : TokenAt delimiters buffer start skip token mark rest) :
    cString ((buffer.set (start + skip.length + token.length) '\x00').drop (start + skip.length)) =
      token := by
  rw [found.cut_here]
  exact cString_append fun mem => (found.plain _ mem).2 rfl

end TokenAt

/-- Without a delimiter, the token is the rest of the text. -/
theorem strtok_absent {delimiters buffer : List Char} (absent : ∀ c ∈ buffer, c ∉ delimiters)
    (start : Nat) : strtok delimiters buffer start =
      if cString (buffer.drop start) = [] then ⟨none, buffer, start⟩
      else ⟨some start, buffer, start + (cString (buffer.drop start)).length⟩ := by
  have none : (buffer.drop start).takeWhile (· ∈ delimiters) = [] := by
    cases here : buffer.drop start with
    | nil => rfl
    | cons c rest => simp [absent c (List.mem_of_mem_drop (here ▸ List.mem_cons_self))]
  have all : (cString (buffer.drop start)).takeWhile (· ∉ delimiters) = cString (buffer.drop start) :=
    List.takeWhile_eq_self_iff.mpr fun c mem => by
      simpa using absent c (List.mem_of_mem_drop ((List.takeWhile_sublist _).subset mem))
  simp only [strtok, none, List.length_nil, Nat.add_zero, all]
  rw [← List.drop_drop, cString_end]
  simp

/-- A visible byte that is no delimiter starts a token. -/
theorem strtok_token {c : Char} (here : buffer.drop start = c :: rest) (other : c ∉ delimiters)
    (visible : c ≠ '\x00') : (strtok delimiters buffer start).token = some start := by
  have skips : (buffer.drop start).takeWhile (· ∈ delimiters) = [] := by
    rw [here, List.takeWhile_cons_of_neg (by simpa using other)]
  have more : cString (buffer.drop start) ≠ [] := by
    rw [here]
    simp [cString, visible]
  simp only [strtok, skips, List.length_nil, Nat.add_zero, if_neg more]
  split <;> rfl

end Tokens

section Numbers

variable {value : Int} {c : Char}

theorem decimal_ne_nil (value : Int) : decimal value ≠ [] := by
  unfold decimal
  split
  · simp
  · exact Nat.toDigits_ne_nil

/-- A decimal number has a sign and digits alone. -/
theorem mem_decimal (mem : c ∈ decimal value) : c = '-' ∨ c.isDigit := by
  have digits {number : Nat} (mem : c ∈ Nat.toDigits 10 number) : c.isDigit :=
    Nat.isDigit_of_mem_toDigits (by decide) (by decide) mem
  unfold decimal at mem
  split at mem
  · rcases List.mem_cons.mp mem with same | mem
    · exact .inl same
    · exact .inr (digits mem)
  · exact .inr (digits mem)

/-- A byte that is no sign and no digit stays out of a decimal number. -/
theorem ne_of_mem_decimal {d : Char} (mem : c ∈ decimal value) (sign : d ≠ '-')
    (digit : d.isDigit = false) : c ≠ d := by
  rintro rfl
  rcases mem_decimal mem with same | present
  · exact sign same
  · rw [digit] at present
    cases present

theorem isspace_of_isDigit (digit : c.isDigit) : isspace c = false := by
  rcases h : isspace c with _ | _
  · rfl
  · simp only [isspace, decide_eq_true_eq, List.mem_cons, List.not_mem_nil, or_false] at h
    rcases h with rfl | rfl | rfl | rfl | rfl | rfl <;> cases digit

theorem isspace_of_mem_decimal (mem : c ∈ decimal value) : isspace c = false := by
  rcases mem_decimal mem with rfl | digit
  · rfl
  · exact isspace_of_isDigit digit

theorem number_toDigits (number : Nat) :
    Nat.ofDigitChars 10 ((Nat.toDigits 10 number).takeWhile Char.isDigit) 0 = number := by
  have digits : ∀ c ∈ Nat.toDigits 10 number, c.isDigit = true := fun c mem =>
    Nat.isDigit_of_mem_toDigits (by decide) (by decide) mem
  rw [List.takeWhile_eq_self_iff.mpr digits, Nat.ofDigitChars_ten_toDigits]

/-- A text without space and sign in front is read from its first byte. -/
theorem strtol_cons {text : List Char} (visible : isspace c = false) (minus : c ≠ '-')
    (plus : c ≠ '+') : strtol (c :: text) =
      min (2 ^ 63 - 1) (↑(Nat.ofDigitChars 10 ((c :: text).takeWhile Char.isDigit) 0) : Int) := by
  have start : (c :: text).dropWhile isspace = c :: text :=
    List.dropWhile_cons_of_neg (by simp [visible])
  simp only [strtol, start]
  split
  · rename_i same
    exact absurd (List.cons.inj same).1 minus
  · rename_i same
    exact absurd (List.cons.inj same).1 plus
  · rfl

/-- A text that starts with no number is zero. -/
theorem atoi_eq_zero {text : List Char} (visible : isspace c = false) (minus : c ≠ '-')
    (plus : c ≠ '+') (digit : c.isDigit = false) : atoi (c :: text) = 0 := by
  rw [atoi, strtol_cons visible minus plus, List.takeWhile_cons_of_neg (by simp [digit])]
  rfl

/-- The digits of a number have no sign before them. -/
theorem strtol_toDigits (number : Nat) :
    strtol (Nat.toDigits 10 number) = min (2 ^ 63 - 1) (number : Int) := by
  have digits : ∀ c ∈ Nat.toDigits 10 number, c.isDigit = true := fun c mem =>
    Nat.isDigit_of_mem_toDigits (by decide) (by decide) mem
  have nonempty : Nat.toDigits 10 number ≠ [] := Nat.toDigits_ne_nil
  have read := number_toDigits number
  obtain ⟨c, tail, same⟩ := List.exists_cons_of_ne_nil nonempty
  rw [same] at digits read ⊢
  have digit := digits c (by simp)
  have minus : c ≠ '-' := by
    rintro rfl
    cases digit
  have plus : c ≠ '+' := by
    rintro rfl
    cases digit
  rw [strtol_cons (isspace_of_isDigit digit) minus plus, read]

theorem strtol_decimal (value : Int) :
    strtol (decimal value) = max (-2 ^ 63) (min (2 ^ 63 - 1) value) := by
  unfold decimal
  split
  · rename_i negative
    have minus : isspace '-' = false := rfl
    simp only [strtol, List.dropWhile_cons, minus, Bool.false_eq_true, if_false, number_toDigits]
    omega
  · rw [strtol_toDigits]
    omega

/-- A number of 32 bits is read back from its digits. -/
theorem atoi_decimal (low : -2 ^ 31 ≤ value) (high : value < 2 ^ 31) :
    atoi (decimal value) = value := by
  rw [atoi, strtol_decimal]
  have kept : max (-2 ^ 63) (min (2 ^ 63 - 1) value) = value := by omega
  rw [kept]
  exact Int.bmod_eq_of_le (by omega) (by omega)

end Numbers

end Foundation
