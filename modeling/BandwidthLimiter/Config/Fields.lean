import BandwidthLimiter.Config.ParseConfig

namespace BandwidthLimiter
open Foundation

/-- The value stands behind the cut name. -/
theorem value_here (name rest : List Char) :
    ((name ++ '=' :: rest ++ ['\x00']).set name.length '\x00').drop (name.length + 1) =
      rest ++ ['\x00'] := by
  rw [List.drop_set_of_lt (Nat.lt_add_one _)]
  simp

section NameValue

variable [OverlappingCopy] {name text ending rest : List Char} {c : Char}

/-- The space behind a text is cut off. -/
theorem trim_text {s : List Char} (whole : cString s = text ++ ending)
    (space : ∀ c ∈ ending, isspace c = true) (full : text ≠ [])
    (first : ∀ c ∈ text.head?, isspace c = false) (last : ∀ c ∈ text.getLast?, isspace c = false) :
    ∃ junk, trim s = text ++ '\x00' :: junk := by
  have plain : '\x00' ∉ text := fun mem => notMem_cString s (whole ▸ List.mem_append_left _ mem)
  have right : (cString s).rdropWhile isspace = text := by
    rw [whole, List.rdropWhile, List.reverse_append,
      List.dropWhile_append_of_pos (by simpa using space), ← List.rdropWhile,
      List.rdropWhile_eq_self_iff]
    exact fun nonempty => by simp [last _ (List.getLast?_eq_getLast_of_ne_nil nonempty)]
  have left : text.takeWhile isspace = [] := by
    obtain ⟨c, tail, rfl⟩ := List.exists_cons_of_ne_nil full
    exact List.takeWhile_cons_of_neg (by simp [first c rfl])
  have cut : cString (s.set text.length '\x00') = text := by
    rw [cString_set, whole, List.take_left]
  refine ⟨(s.set text.length '\x00').drop (text.length + 1), ?_⟩
  simp only [trim, right, left, List.length_nil, strcpyDown_zero, strcpy, cut]

/-- The name of a line ends at the first equals sign, and the value starts behind it. -/
theorem nameValue_eq (full : name ≠ []) (plain : ∀ c ∈ name, c ≠ '=' ∧ c ≠ '\x00')
    (short : name.length < maxLen) (other : c ≠ '=') (visible : c ≠ '\x00') :
    nameValue (name ++ '=' :: c :: rest) = some (name, trim (strncpy ((strtok ['=']
      ((name ++ '=' :: c :: rest ++ ['\x00']).set name.length '\x00') (name.length + 1)).buffer.drop
        (name.length + 1)) maxLen)) := by
  have found : TokenAt ['='] (name ++ '=' :: c :: rest ++ ['\x00']) 0 [] name '='
      (c :: rest ++ ['\x00']) := ⟨by simp, by simp, full, by simpa using plain⟩
  have cut := found.strtok_mark (by simp) (by decide)
  have text := found.cString_cut
  simp only [List.length_nil, Nat.add_zero, Nat.zero_add] at cut text
  have token := strtok_token (value_here name (c :: rest)) (List.mem_singleton.not.mpr other) visible
  rw [List.drop_zero] at text
  have copy := cString_strncpy (text.symm ▸ short)
  rw [text] at copy
  simp only [nameValue, cut, token, List.drop_zero, copy]

/-- A line with a plain name and a visible value has both. -/
theorem nameValue_some (full : name ≠ []) (plain : ∀ c ∈ name, c ≠ '=' ∧ c ≠ '\x00')
    (short : name.length < maxLen) (other : c ≠ '=') (visible : c ≠ '\x00') :
    ∃ value, nameValue (name ++ '=' :: c :: rest) = some (name, value) :=
  ⟨_, nameValue_eq full plain short other visible⟩

/-- A plain value without space around it is read as a whole. -/
theorem nameValue_text (full : name ≠ []) (plain : ∀ c ∈ name, c ≠ '=' ∧ c ≠ '\x00')
    (nonempty : text ≠ []) (bare : ∀ c ∈ text ++ ending, c ≠ '=' ∧ c ≠ '\x00')
    (space : ∀ c ∈ ending, isspace c = true) (first : ∀ c ∈ text.head?, isspace c = false)
    (last : ∀ c ∈ text.getLast?, isspace c = false)
    (short : (name ++ '=' :: (text ++ ending)).length < maxLen) :
    ∃ junk, nameValue (name ++ '=' :: (text ++ ending)) = some (name, text ++ '\x00' :: junk) := by
  have small : name.length < maxLen := by
    simp only [List.length_append, List.length_cons] at short
    omega
  let buffer := (name ++ '=' :: (text ++ ending) ++ ['\x00']).set name.length '\x00'
  have found : TokenAt ['='] buffer (name.length + 1) [] (text ++ ending) '\x00' [] :=
    ⟨value_here name (text ++ ending), by simp, by simp [nonempty], by simpa using bare⟩
  have ended := found.strtok_end
  have whole : cString (buffer.drop (name.length + 1)) = text ++ ending := by
    rw [value_here]
    exact cString_append fun mem => (bare _ mem).2 rfl
  have fits : (cString (buffer.drop (name.length + 1))).length < maxLen := by
    rw [whole]
    simp only [List.length_append, List.length_cons] at short ⊢
    omega
  obtain ⟨junk, trimmed⟩ := trim_text ((cString_strncpy fits).trans whole) space nonempty first last
  refine ⟨junk, ?_⟩
  obtain ⟨c, tail, rfl⟩ := List.exists_cons_of_ne_nil nonempty
  have visible := bare c (by simp)
  rw [List.cons_append, nameValue_eq full plain small visible.1 visible.2, ← List.cons_append, ended]
  simp only [buffer] at trimmed
  rw [trimmed]

end NameValue

section Ports

variable {field more rest buffer : List Char} {mark : Char} {start : Nat}

/-- A field before a comma is read, and the next field starts behind the comma. -/
theorem FieldScan.next_comma (loop2 : Nat) (inner : loop2 ≠ fieldSize)
    (here : buffer.drop start = field ++ ',' :: (more ++ mark :: rest)) (full : field ≠ [])
    (plain : ∀ c ∈ field, c ≠ ',' ∧ c ≠ '\x00') (follows : more ≠ [])
    (inside : ∀ c ∈ more, c ≠ ']' ∧ c ≠ '\x00') (ends : mark = ']' ∨ mark = '\x00') :
    ∃ nextBuffer nextStart, nextBuffer.drop nextStart = more ++ '\x00' :: rest ∧
      ∀ pData : PortStr, (FieldScan.mk pData buffer (some start)).next loop2 =
        ⟨pData.assign loop2 (atoi field), nextBuffer, some nextStart⟩ := by
  have comma : TokenAt [','] buffer start [] field ',' (more ++ mark :: rest) :=
    ⟨here, by simp, full, by simpa using plain⟩
  have cut := comma.strtok_mark (by simp) (by decide)
  have text := comma.cString_cut
  have behind := comma.cut_behind
  simp only [List.length_nil, Nat.add_zero] at cut text behind
  have bracket : TokenAt [']'] (buffer.set (start + field.length) '\x00')
      (start + field.length + 1) [] more mark rest :=
    ⟨behind, by simp, follows, by simpa using inside⟩
  simp only [FieldScan.next, if_pos inner, cut, text]
  rcases ends with rfl | rfl
  · have last := bracket.strtok_mark (by simp) (by decide)
    have next := bracket.cut_here
    simp only [List.length_nil, Nat.add_zero] at last next
    exact ⟨_, _, next, fun pData => by rw [last]⟩
  · have last := bracket.strtok_end
    simp only [List.length_nil, Nat.add_zero] at last
    exact ⟨_, _, behind, fun pData => by rw [last]⟩

/-- The last field ends with the text. -/
theorem FieldScan.next_last (pData : PortStr) (here : buffer.drop start = field ++ '\x00' :: rest)
    (full : field ≠ []) (plain : ∀ c ∈ field, c ≠ ']' ∧ c ≠ '\x00') :
    ((FieldScan.mk pData buffer (some start)).next fieldSize).pData =
      pData.assign fieldSize (atoi field) := by
  have bracket : TokenAt [']'] buffer start [] field '\x00' rest :=
    ⟨here, by simp, full, by simpa using plain⟩
  have text := bracket.strtok_end
  simp only [List.length_nil, Nat.add_zero] at text
  simp only [FieldScan.next, ne_eq, not_true_eq_false, if_false, text, here]
  rw [cString_append fun mem => (plain _ mem).2 rfl]

/-- The fields of a port in brackets, as the parser expects them. -/
def PortStr.fields (port : PortStr) : List Char :=
  decimal port.portNo.toNat ++ ',' :: (decimal port.upLimit ++ ',' ::
    (decimal port.downLimit ++ ',' :: decimal port.latency.toNat))

/-- The numbers of a port fit the 32 bits that the parser reads. -/
structure PortStr.Fits (port : PortStr) : Prop where
  portNo : port.portNo.toNat < 2 ^ 31
  upLimit : -2 ^ 31 ≤ port.upLimit ∧ port.upLimit < 2 ^ 31
  downLimit : -2 ^ 31 ≤ port.downLimit ∧ port.downLimit < 2 ^ 31
  latency : port.latency.toNat < 2 ^ 31

/-- The fields have no brackets and no NUL bytes. -/
theorem PortStr.mem_fields {port : PortStr} {c : Char} (mem : c ∈ port.fields) :
    c ≠ '[' ∧ c ≠ ']' ∧ c ≠ '\x00' ∧ c ≠ '=' ∧ c ≠ '\n' := by
  have inside {value : Int} (mem : c ∈ decimal value) :
      c ≠ '[' ∧ c ≠ ']' ∧ c ≠ '\x00' ∧ c ≠ '=' ∧ c ≠ '\n' := by
    refine ⟨?_, ?_, ?_, ?_, ?_⟩ <;> exact ne_of_mem_decimal mem (by decide) (by decide)
  simp only [fields, List.mem_append, List.mem_cons] at mem
  rcases mem with mem | rfl | mem | rfl | mem | rfl | mem
  · exact inside mem
  · decide
  · exact inside mem
  · decide
  · exact inside mem
  · decide
  · exact inside mem

theorem field_plain {value : Int} : ∀ c ∈ decimal value, c ≠ ',' ∧ c ≠ '\x00' := fun _ mem =>
  ⟨ne_of_mem_decimal mem (by decide) (by decide), ne_of_mem_decimal mem (by decide) (by decide)⟩

theorem field_inside {value : Int} : ∀ c ∈ decimal value, c ≠ ']' ∧ c ≠ '\x00' := fun _ mem =>
  ⟨ne_of_mem_decimal mem (by decide) (by decide), ne_of_mem_decimal mem (by decide) (by decide)⟩

theorem inside_comma {value : Int} (inside : ∀ c ∈ more, c ≠ ']' ∧ c ≠ '\x00') :
    ∀ c ∈ decimal value ++ ',' :: more, c ≠ ']' ∧ c ≠ '\x00' := by
  intro c mem
  rcases List.mem_append.mp mem with mem | mem
  · exact field_inside c mem
  · rcases List.mem_cons.mp mem with rfl | mem
    · decide
    · exact inside c mem

theorem ofInt_decimal {number : UInt32} (small : number.toNat < 2 ^ 31) :
    UInt32.ofInt (atoi (decimal number.toNat)) = number := by
  have kept : ((number.toNat : Int) % 2 ^ 32).toNat = number.toNat := by omega
  rw [atoi_decimal (by omega) (by omega), UInt32.ofInt, kept, UInt32.ofNat_toNat]

theorem PortStr.assign_fields {port : PortStr} (fits : port.Fits) :
    (((PortStr.zero.assign 1 (atoi (decimal port.portNo.toNat))).assign 2
      (atoi (decimal port.upLimit))).assign 3 (atoi (decimal port.downLimit))).assign fieldSize
        (atoi (decimal port.latency.toNat)) = port := by
  rw [atoi_decimal fits.upLimit.1 fits.upLimit.2, atoi_decimal fits.downLimit.1 fits.downLimit.2]
  simp only [assign, fieldSize, ofInt_decimal fits.portNo, ofInt_decimal fits.latency]

/-- The parser reads the fields of a port back. -/
theorem portEntry_fields {port : PortStr} (fits : port.Fits) (junk : List Char) :
    (portEntry ('[' :: (port.fields ++ ']' :: '\x00' :: junk))).1 = port := by
  have bracket : TokenAt ['['] ('[' :: (port.fields ++ ']' :: '\x00' :: junk)) 0 ['[']
      (port.fields ++ [']']) '\x00' junk := by
    refine ⟨by simp, by simp, by simp, fun c mem => ?_⟩
    rcases List.mem_append.mp mem with mem | mem
    · obtain ⟨first, -, bare, -⟩ := PortStr.mem_fields mem
      exact ⟨by simpa using first, bare⟩
    · obtain rfl := List.mem_singleton.mp mem
      decide
  have opened := bracket.strtok_end
  simp only [List.length_cons, List.length_nil, Nat.zero_add] at opened
  have rounds (scan : FieldScan) : (List.range' 1 fieldSize).foldl FieldScan.next scan =
      (((scan.next 1).next 2).next 3).next fieldSize := rfl
  simp only [portEntry, opened, rounds]
  generalize buffered : '[' :: (port.fields ++ ']' :: '\x00' :: junk) = value
  let latency := decimal port.latency.toNat
  let down := decimal port.downLimit ++ ',' :: latency
  let up := decimal port.upLimit ++ ',' :: down
  have opens : value.drop 1 = decimal port.portNo.toNat ++ ',' :: (up ++ ']' :: '\x00' :: junk) := by
    simp [← buffered, PortStr.fields, up, down, latency]
  obtain ⟨_, _, opens, first⟩ := FieldScan.next_comma 1 (by decide) opens (decimal_ne_nil _)
    field_plain (by simp [up]) (inside_comma (inside_comma field_inside)) (.inl rfl)
  rw [List.append_assoc, List.cons_append] at opens
  obtain ⟨_, _, opens, second⟩ := FieldScan.next_comma 2 (by decide) opens (decimal_ne_nil _)
    field_plain (by simp [down]) (inside_comma field_inside) (.inr rfl)
  rw [List.append_assoc, List.cons_append] at opens
  obtain ⟨_, _, opens, third⟩ := FieldScan.next_comma 3 (by decide) opens (decimal_ne_nil _)
    field_plain (decimal_ne_nil _) field_inside (.inr rfl)
  rw [first, second, third, FieldScan.next_last _ opens (decimal_ne_nil _) field_inside]
  exact PortStr.assign_fields fits

end Ports

/-- A path that the parser reads as a whole. -/
structure PlainPath (path : List Char) : Prop where
  full : path ≠ []
  plain : ∀ c ∈ path, c ≠ '[' ∧ c ≠ ']' ∧ c ≠ '=' ∧ c ≠ '\x00'

/-- The text between brackets stays in the buffer behind the first bracket. -/
theorem bracketText_plain {path : List Char} (plain : PlainPath path) (junk : List Char) :
    (bracketText ('[' :: (path ++ ']' :: '\x00' :: junk))).1 = .value 1 ∧
      cString ((bracketText ('[' :: (path ++ ']' :: '\x00' :: junk))).2.drop 1) = path := by
  generalize buffered : '[' :: (path ++ ']' :: '\x00' :: junk) = value
  have opens : TokenAt ['['] value 0 ['['] (path ++ [']']) '\x00' junk := by
    refine ⟨by simp [← buffered], by simp, by simp, fun c mem => ?_⟩
    rcases List.mem_append.mp mem with mem | mem
    · exact ⟨by simpa using (plain.plain c mem).1, (plain.plain c mem).2.2.2⟩
    · obtain rfl := List.mem_singleton.mp mem
      decide
  have closes : TokenAt [']'] value 1 [] path ']' ('\x00' :: junk) :=
    ⟨by simp [← buffered], by simp, plain.full,
      fun c mem => ⟨by simpa using (plain.plain c mem).2.1, (plain.plain c mem).2.2.2⟩⟩
  have first := opens.strtok_end
  have second := closes.strtok_mark (by simp) (by decide)
  have text := closes.cString_cut
  simp only [List.length_cons, List.length_nil, Nat.zero_add, Nat.add_zero] at first second text
  have whole : bracketText value = (.value 1, value.set (1 + path.length) '\x00') := by
    simp only [bracketText, first, Option.getD_some, second]
  rw [whole]
  exact ⟨rfl, text⟩

end BandwidthLimiter
