import BandwidthLimiter.Config.Fields
import BandwidthLimiter.Config.Lines

namespace BandwidthLimiter
open Foundation

/-- A named port of the file. The name is a text of one line and starts no comment. -/
structure ConfigEntry where
  name : List Char
  port : PortStr
  named : name ≠ []
  plain : ∀ c ∈ name, c ≠ '=' ∧ c ≠ '\n' ∧ c ≠ '\x00'
  visible : name.head? ≠ some '#'
  portNo : port.portNo.toNat ≤ 65535
  upLimit : -2 ^ 31 ≤ port.upLimit ∧ port.upLimit < 2 ^ 31
  downLimit : -2 ^ 31 ≤ port.downLimit ∧ port.downLimit < 2 ^ 31
  latency : port.latency.toNat < 2 ^ 31

def ConfigEntry.line (entry : ConfigEntry) : List Char :=
  entry.name ++ '=' :: ('[' :: (entry.port.fields ++ [']']))

def countLine (count : Nat) : List Char := "NO_PORT".toList ++ '=' :: decimal count

def pathLine (path : List Char) : List Char := "LIBC_PATH".toList ++ '=' :: ('[' :: (path ++ [']']))

/-- Empty lines and comments say nothing. -/
def significant (line : List Char) : Bool := line ≠ [] && line.head? ≠ some '#'

/-- The lines of a file for a list of entries; empty lines and comments stand anywhere. -/
structure RenderedFile (entries : List ConfigEntry) (path : List Char) where
  lines : List (List Char)
  plain : ∀ line ∈ lines, '\n' ∉ line
  short : ∀ line ∈ lines, line.length < 1023
  order : lines.filter significant =
    countLine entries.length :: (entries.map ConfigEntry.line ++ [pathLine path])

/-- The lines with newlines between them; a final newline is one more empty line. -/
def RenderedFile.content {entries : List ConfigEntry} {path : List Char}
    (file : RenderedFile entries path) : List Char := List.intercalate ['\n'] file.lines

/-- A line as the parser reads it; the last one may lack its newline. -/
def IsRead (line read : List Char) : Prop := read = line ∨ read = line ++ ['\n']

section Reads

variable {line read : List Char} {rest lines : List (List Char)}

/-- The first of some lines is read, unless the text ends with it. -/
theorem linesOf_intercalate_cons (plain : '\n' ∉ line) (short : line.length < 1023)
    (rest : List (List Char)) :
    line = [] ∧ linesOf maxLen (List.intercalate ['\n'] (line :: rest)) =
        linesOf maxLen (List.intercalate ['\n'] rest) ∨
      ∃ read, IsRead line read ∧ read ≠ [] ∧
        linesOf maxLen (List.intercalate ['\n'] (line :: rest)) =
          read :: linesOf maxLen (List.intercalate ['\n'] rest) := by
  have room : line.length + 1 < maxLen := Nat.succ_lt_succ short
  cases rest with
  | nil =>
      rw [List.intercalate_singleton, List.intercalate_nil, linesOf_nil]
      by_cases nonempty : line = []
      · exact .inl ⟨nonempty, by rw [nonempty, linesOf_nil]⟩
      · exact .inr ⟨line, .inl rfl, nonempty, linesOf_last plain (by omega) nonempty⟩
  | cons next rest =>
      refine .inr ⟨line ++ ['\n'], .inr rfl, by simp, ?_⟩
      rw [List.intercalate_cons_cons, List.append_assoc]
      exact linesOf_line plain room _

/-- Empty lines and comments are skipped. -/
theorem isSkipped_read (silent : significant line = false) (read_line : IsRead line read)
    (nonempty : read ≠ []) : isSkipped read = true := by
  rcases line with _ | ⟨c, line⟩
  · rcases read_line with rfl | rfl
    · exact absurd rfl nonempty
    · rfl
  · have comment : c = '#' := by simpa [significant] using silent
    rcases read_line with rfl | rfl <;> simp [isSkipped, comment]

theorem IsRead.exists_ending (read_line : IsRead line read) :
    ∃ ending, read = line ++ ending ∧ (∀ c ∈ ending, isspace c = true) ∧ ending.length ≤ 1 ∧
      ∀ c ∈ ending, c ≠ '=' ∧ c ≠ '\x00' := by
  rcases read_line with rfl | rfl
  · exact ⟨[], by simp⟩
  · exact ⟨['\n'], rfl, by simp [isspace], le_refl _, by simp⟩

end Reads

section Lines

variable {entry : ConfigEntry} {entries : List ConfigEntry} {path read : List Char} {count : Nat}

theorem ConfigEntry.fits (entry : ConfigEntry) : entry.port.Fits where
  portNo := by
    have small := entry.portNo
    omega
  upLimit := entry.upLimit
  downLimit := entry.downLimit
  latency := entry.latency

theorem ConfigEntry.isSkipped_read (read_line : IsRead entry.line read) : isSkipped read = false := by
  obtain ⟨c, tail, name⟩ := List.exists_cons_of_ne_nil entry.named
  have newline := (entry.plain c (by simp [name])).2.1
  have visible := entry.visible
  rw [name] at visible
  rcases read_line with rfl | rfl <;> simp_all [isSkipped, line]

theorem isSkipped_countLine (read_line : IsRead (countLine count) read) : isSkipped read = false := by
  rcases read_line with rfl | rfl <;> rfl

theorem isSkipped_pathLine (read_line : IsRead (pathLine path) read) : isSkipped read = false := by
  rcases read_line with rfl | rfl <;> rfl

theorem portCount_decimal (small : count < 2 ^ 31) (junk : List Char) :
    (portCount (decimal count ++ '\x00' :: junk)).toNat = count := by
  have visible : '\x00' ∉ decimal count := fun mem =>
    ne_of_mem_decimal mem (by decide) (by decide) rfl
  have kept : ((count : Int) % 2 ^ 64).toNat = count := by omega
  have range : count < UInt64.size := by
    have size : UInt64.size = 2 ^ 64 := rfl
    omega
  rw [portCount, cString_append visible, atoi_decimal (by omega) (by omega), UInt64.ofInt, kept]
  exact UInt64.toNat_ofNat_of_lt range

theorem portCount_bracket (rest : List Char) : portCount ('[' :: rest) = 0 := by
  have text : cString ('[' :: rest) = '[' :: cString rest := rfl
  rw [portCount, text, atoi_eq_zero (by decide) (by decide) (by decide) (by decide)]
  rfl

theorem assignText_portListHead (params : ConfigStruct) (name value : List Char) :
    (assignText params name value).1.portListHead = params.portListHead := by
  unfold assignText
  split_ifs <;> rfl

/-- Distinct ports are at most 65536. -/
theorem length_le_ports (distinct : (entries.map fun entry => entry.port.portNo).Nodup) :
    entries.length ≤ 65536 := by
  have numbers : (entries.map fun entry => entry.port.portNo.toNat).Nodup := by
    have mapped : ((entries.map fun entry => entry.port.portNo).map UInt32.toNat).Nodup :=
      distinct.map fun _ _ => UInt32.toNat_inj.mp
    rwa [List.map_map] at mapped
  have range : (entries.map fun entry => entry.port.portNo.toNat) ⊆ List.range 65536 := by
    intro number mem
    obtain ⟨entry, -, rfl⟩ := List.mem_map.mp mem
    exact List.mem_range.mpr (Nat.lt_succ_of_le entry.portNo)
  have bound := (List.subperm_of_subset numbers range).length_le
  rwa [List.length_map, List.length_range] at bound

theorem exists_of_mem_reads {reads : List (List Char)} {read : List Char}
    (related : List.Forall₂ IsRead (entries.map ConfigEntry.line) reads) (mem : read ∈ reads) :
    ∃ entry ∈ entries, IsRead entry.line read := by
  induction entries generalizing reads with
  | nil =>
      cases related
      cases mem
  | cons entry rest ih =>
      obtain ⟨first, others, read_line, tail, rfl⟩ := List.forall₂_cons_left_iff.mp related
      rcases List.mem_cons.mp mem with rfl | mem
      · exact ⟨entry, by simp, read_line⟩
      · obtain ⟨other, listed, found⟩ := ih tail mem
        exact ⟨other, by simp [listed], found⟩

end Lines

section Copy

variable [OverlappingCopy]

section Values

variable {line read : List Char} {rest lines : List (List Char)}

/-- The parser acts on the significant lines alone. -/
theorem exists_reads (plain : ∀ line ∈ lines, '\n' ∉ line)
    (short : ∀ line ∈ lines, line.length < 1023) :
    ∃ reads, List.Forall₂ IsRead (lines.filter significant) reads ∧
      (∀ reading : Reading, reading.run (linesOf maxLen (List.intercalate ['\n'] lines)) =
        reading.run reads) ∧
      ∀ pending, portCounts pending (linesOf maxLen (List.intercalate ['\n'] lines)) =
        portCounts pending reads := by
  induction lines with
  | nil => exact ⟨[], .nil, fun _ => by rw [List.intercalate_nil, linesOf_nil],
      fun _ => by rw [List.intercalate_nil, linesOf_nil]⟩
  | cons line rest ih =>
      obtain ⟨reads, related, run, counts⟩ := ih (fun other mem => plain other (by simp [mem]))
        (fun other mem => short other (by simp [mem]))
      rcases linesOf_intercalate_cons (plain line (by simp)) (short line (by simp)) rest with
        ⟨rfl, same⟩ | ⟨read, read_line, nonempty, same⟩
      · refine ⟨reads, related, ?_, ?_⟩
        · intro reading
          rw [same, run]
        · intro pending
          rw [same, counts]
      · rw [same]
        cases kind : significant line with
        | true =>
            rw [List.filter_cons_of_pos kind]
            refine ⟨read :: reads, .cons read_line related, ?_, ?_⟩
            · intro reading
              exact run (reading.step read)
            · intro pending
              simp only [portCounts, counts]
        | false =>
            rw [List.filter_cons_of_neg (by simp [kind])]
            have skipped := isSkipped_read kind read_line nonempty
            refine ⟨reads, related, ?_, ?_⟩
            · intro reading
              rw [Reading.run, List.foldl_cons, Reading.step, if_pos skipped]
              exact run reading
            · intro pending
              rw [portCounts, if_pos skipped, counts]

/-- The parser reads a name and a plain value back from their line. -/
theorem nameValue_read {name text : List Char} (full : name ≠ [])
    (plain : ∀ c ∈ name, c ≠ '=' ∧ c ≠ '\x00') (nonempty : text ≠ [])
    (bare : ∀ c ∈ text, c ≠ '=' ∧ c ≠ '\x00') (first : ∀ c ∈ text.head?, isspace c = false)
    (last : ∀ c ∈ text.getLast?, isspace c = false)
    (short : (name ++ '=' :: text).length < 1023) (read_line : IsRead (name ++ '=' :: text) read) :
    ∃ junk, nameValue read = some (name, text ++ '\x00' :: junk) := by
  obtain ⟨ending, rfl, space, small, clean⟩ := read_line.exists_ending
  have whole : ∀ c ∈ text ++ ending, c ≠ '=' ∧ c ≠ '\x00' := fun c mem =>
    (List.mem_append.mp mem).elim (bare c) (clean c)
  have room : (name ++ '=' :: (text ++ ending)).length < maxLen := by
    simp only [List.length_append, List.length_cons, maxLen] at short ⊢
    omega
  rw [List.append_assoc, List.cons_append]
  exact nameValue_text full plain nonempty whole space first last room

/-- The parser reads a name and a text in brackets back from their line. -/
theorem nameValue_bracket {name inner : List Char} (full : name ≠ [])
    (plain : ∀ c ∈ name, c ≠ '=' ∧ c ≠ '\x00') (bare : ∀ c ∈ inner, c ≠ '=' ∧ c ≠ '\x00')
    (short : (name ++ '=' :: ('[' :: (inner ++ [']']))).length < 1023)
    (read_line : IsRead (name ++ '=' :: ('[' :: (inner ++ [']']))) read) :
    ∃ junk, nameValue read = some (name, '[' :: (inner ++ ']' :: '\x00' :: junk)) := by
  have whole : ∀ c ∈ '[' :: (inner ++ [']']), c ≠ '=' ∧ c ≠ '\x00' := by
    intro c mem
    simp only [List.mem_cons, List.mem_append, List.not_mem_nil, or_false] at mem
    rcases mem with rfl | mem | rfl
    · decide
    · exact bare c mem
    · decide
  have first : ∀ c ∈ ('[' :: (inner ++ [']'])).head?, isspace c = false := by simp [isspace]
  have last : ∀ c ∈ ('[' :: (inner ++ [']'])).getLast?, isspace c = false := by
    rw [← List.cons_append, List.getLast?_concat]
    simp [isspace]
  obtain ⟨junk, found⟩ := nameValue_read full plain (by simp) whole first last short read_line
  exact ⟨junk, by simpa using found⟩

end Values

section Steps

variable {entry : ConfigEntry} {entries : List ConfigEntry} {path read : List Char}
  {reads : List (List Char)} {reading : Reading} {count : Nat}

/-- The line of an entry has a name and the fields of its port. -/
theorem ConfigEntry.nameValue_read (short : entry.line.length < 1023)
    (read_line : IsRead entry.line read) :
    ∃ junk, nameValue read =
      some (entry.name, '[' :: (entry.port.fields ++ ']' :: '\x00' :: junk)) := by
  refine nameValue_bracket entry.named
    (fun c mem => ⟨(entry.plain c mem).1, (entry.plain c mem).2.2⟩) (fun c mem => ?_) short read_line
  obtain ⟨-, -, visible, other, -⟩ := PortStr.mem_fields mem
  exact ⟨other, visible⟩

/-- The line of an entry inside the port section adds its port. -/
theorem ConfigEntry.step_read (short : entry.line.length < 1023) (read_line : IsRead entry.line read)
    (inside : 0 < reading.pending) :
    (reading.step read).pending = reading.pending - 1 ∧
      (reading.step read).params.portListHead = reading.params.portListHead ++ [entry.port] := by
  obtain ⟨junk, found⟩ := ConfigEntry.nameValue_read short read_line
  have port : (portEntry ('[' :: (entry.port.fields ++ ']' :: '\x00' :: junk))).1 = entry.port :=
    portEntry_fields entry.fits junk
  rw [Reading.step_inside (ConfigEntry.isSkipped_read read_line) found inside, port]
  exact ⟨rfl, rfl⟩

/-- The lines of the entries add their ports in the order of the file. -/
theorem run_entries (related : List.Forall₂ IsRead (entries.map ConfigEntry.line) reads)
    (short : ∀ entry ∈ entries, entry.line.length < 1023) (inside : reading.pending = entries.length) :
    (reading.run reads).pending = 0 ∧ (reading.run reads).params.portListHead =
      reading.params.portListHead ++ entries.map ConfigEntry.port := by
  induction entries generalizing reading reads with
  | nil =>
      cases related
      exact ⟨inside, (List.append_nil _).symm⟩
  | cons entry rest ih =>
      obtain ⟨read, others, read_line, tail, rfl⟩ := List.forall₂_cons_left_iff.mp related
      have waits : 0 < reading.pending := by simp [inside]
      obtain ⟨pending, ports⟩ := ConfigEntry.step_read (short entry (by simp)) read_line waits
      obtain ⟨done, list⟩ := ih tail (fun other mem => short other (by simp [mem]))
        (pending.trans (by rw [inside]; rfl))
      refine ⟨done, list.trans ?_⟩
      rw [ports, List.append_assoc]
      rfl

/-- The line with the port count opens the port section. -/
theorem nameValue_countLine (short : (countLine count).length < 1023)
    (read_line : IsRead (countLine count) read) :
    ∃ junk, nameValue read = some ("NO_PORT".toList, decimal count ++ '\x00' :: junk) := by
  refine BandwidthLimiter.nameValue_read (by simp) (by simp) (decimal_ne_nil _)
    (fun c mem => ⟨ne_of_mem_decimal mem (by decide) (by decide),
      ne_of_mem_decimal mem (by decide) (by decide)⟩) ?_ ?_ short read_line
  · exact fun c mem => isspace_of_mem_decimal (List.mem_of_mem_head? mem)
  · exact fun c mem => isspace_of_mem_decimal (List.mem_of_mem_getLast? mem)

theorem nameValue_pathLine (read_line : IsRead (pathLine path) read) :
    ∃ value, nameValue read = some ("LIBC_PATH".toList, value) := by
  obtain ⟨ending, rfl, -⟩ := read_line.exists_ending
  have short : "LIBC_PATH".toList.length < maxLen := by simp [maxLen]
  have found : ∃ value, nameValue ("LIBC_PATH".toList ++ '=' :: '[' :: (path ++ [']'] ++ ending)) =
      some ("LIBC_PATH".toList, value) :=
    nameValue_some (by simp) (by simp) short (by decide) (by decide)
  unfold pathLine
  rw [List.append_assoc]
  exact found

/-- The line with the path keeps the ports. -/
theorem step_pathLine (read_line : IsRead (pathLine path) read) (outside : reading.pending = 0) :
    (reading.step read).params.portListHead = reading.params.portListHead := by
  obtain ⟨value, found⟩ := nameValue_pathLine read_line
  have other : "LIBC_PATH".toList ≠ "NO_PORT".toList := by decide
  rw [Reading.step_outside (isSkipped_pathLine read_line) found outside, if_neg other]
  exact assignText_portListHead ..

/-- The line with a plain path keeps its text in the value buffer. -/
theorem step_plainPath (plain : PlainPath path) (short : (pathLine path).length < 1023)
    (read_line : IsRead (pathLine path) read) (outside : reading.pending = 0) :
    (reading.step read).params.libcPath = .value 1 ∧
      cString ((reading.step read).value.drop 1) = path := by
  obtain ⟨junk, found⟩ := nameValue_bracket (by simp) (by simp)
    (fun c mem => ⟨(plain.plain c mem).2.2.1, (plain.plain c mem).2.2.2⟩) short read_line
  obtain ⟨pointer, text⟩ := bracketText_plain plain junk
  have other : "LIBC_PATH".toList ≠ "NO_PORT".toList := by decide
  rw [Reading.step_outside (isSkipped_pathLine read_line) found outside, if_neg other]
  exact ⟨pointer, text⟩

/-- The line with the port count waits for its ports. -/
theorem step_countLine (short : (countLine count).length < 1023) (small : count < 2 ^ 31)
    (read_line : IsRead (countLine count) read) (outside : reading.pending = 0) :
    (reading.step read).pending = count ∧
      (reading.step read).params.portListHead = reading.params.portListHead := by
  obtain ⟨junk, found⟩ := nameValue_countLine short read_line
  rw [Reading.step_outside (isSkipped_countLine read_line) found outside, if_pos rfl]
  exact ⟨portCount_decimal small junk, rfl⟩

/-- Only a port count of −1 is endless. -/
theorem countLine_finite (short : (countLine count).length < 1023) (small : count < 2 ^ 31)
    (read_line : IsRead (countLine count) read) : noPortOf read ≠ some (-1) := by
  obtain ⟨junk, found⟩ := nameValue_countLine short read_line
  rw [noPortOf, found]
  intro same
  have large := congrArg UInt64.toNat (Option.some.inj same)
  rw [portCount_decimal small junk] at large
  have greatest : (-1 : UInt64).toNat = 2 ^ 64 - 1 := rfl
  omega

theorem pathLine_finite (read_line : IsRead (pathLine path) read) : noPortOf read ≠ some (-1) := by
  obtain ⟨value, found⟩ := nameValue_pathLine read_line
  have other : "LIBC_PATH".toList ≠ "NO_PORT".toList := by decide
  rw [noPortOf, found]
  simp only [if_neg other]
  exact fun same => by cases same

/-- The value of an entry is no number, so its name may be any text. -/
theorem ConfigEntry.line_finite (short : entry.line.length < 1023)
    (read_line : IsRead entry.line read) : noPortOf read ≠ some (-1) := by
  obtain ⟨junk, found⟩ := ConfigEntry.nameValue_read short read_line
  rw [noPortOf, found]
  simp only [portCount_bracket]
  split <;> intro same <;> cases same

end Steps

section Files

variable {entries : List ConfigEntry} {path : List Char}

/-- The reads of a file are the count, the entries and the path. -/
theorem RenderedFile.exists_reads (file : RenderedFile entries path) :
    ∃ count ports last, IsRead (countLine entries.length) count ∧
      List.Forall₂ IsRead (entries.map ConfigEntry.line) ports ∧ IsRead (pathLine path) last ∧
      (∀ reading : Reading, reading.run (linesOf maxLen file.content) =
        ((reading.step count).run ports).step last) ∧
      ∀ pending, portCounts pending (linesOf maxLen file.content) =
        portCounts pending (count :: (ports ++ [last])) := by
  obtain ⟨reads, related, run, counts⟩ := BandwidthLimiter.exists_reads file.plain file.short
  rw [file.order] at related
  obtain ⟨count, rest, counted, tail, rfl⟩ := List.forall₂_cons_left_iff.mp related
  have front := (List.forall₂_take_append rest _ _ tail.flip).flip
  have back := (List.forall₂_drop_append rest _ _ tail.flip).flip
  obtain ⟨last, others, ended, empty, split⟩ := List.forall₂_cons_left_iff.mp back
  obtain rfl := List.forall₂_nil_left_iff.mp empty
  rw [List.length_map] at front split
  have whole : rest = rest.take entries.length ++ [last] := by
    rw [← split, List.take_append_drop]
  rw [whole] at run counts
  refine ⟨count, rest.take entries.length, last, counted, front, ended, ?_, counts⟩
  intro reading
  rw [RenderedFile.content, run]
  simp only [Reading.run, List.foldl_cons, List.foldl_append, List.foldl_nil]

/-- The parser reads the entries of a file in their order. -/
theorem RenderedFile.parses (file : RenderedFile entries path)
    (distinct : (entries.map fun entry => entry.port.portNo).Nodup) :
    ∃ fuel state, parseConfig fuel (some file.content) = some (1, state) ∧
      state.params.portListHead = entries.map ConfigEntry.port ∧
      (PlainPath path → state.text state.params.libcPath = some path) := by
  obtain ⟨count, ports, last, counted, related, ended, run, counts⟩ := file.exists_reads
  have few := length_le_ports distinct
  have inside (line : List Char) (mem : line ∈ countLine entries.length ::
      (entries.map ConfigEntry.line ++ [pathLine path])) : line.length < 1023 := by
    rw [← file.order] at mem
    exact file.short line (List.mem_of_mem_filter mem)
  have short : ∀ entry ∈ entries, entry.line.length < 1023 := fun entry mem =>
    inside entry.line (by simp [List.mem_map_of_mem mem])
  have finite : -1 ∉ portCounts 0 (linesOf maxLen file.content) := by
    rw [counts]
    refine portCounts_finite (fun line mem => ?_) 0
    rcases List.mem_cons.mp mem with rfl | mem
    · exact countLine_finite (inside _ (by simp)) (by omega) counted
    · rcases List.mem_append.mp mem with mem | mem
      · obtain ⟨entry, listed, read_line⟩ := exists_of_mem_reads related mem
        exact ConfigEntry.line_finite (short entry listed) read_line
      · rw [List.mem_singleton.mp mem]
        exact pathLine_finite ended
  have loop : ∃ fuel final, parseLoop fuel ⟨file.content, .initial, []⟩ = some final ∧
      final.stream = [] ∧ _ := parseLoop_returns finite
  obtain ⟨fuel, final, done, empty, kept⟩ := loop
  have result := kept.result
  rw [empty, linesOf_nil, run] at result
  obtain ⟨params, value⟩ := Prod.mk.inj result
  have opened := step_countLine (inside _ (by simp)) (by omega) counted
    (show (ParserState.reading ⟨file.content, .initial, []⟩ 0).pending = 0 from rfl)
  have filled := run_entries related short opened.1
  refine ⟨fuel, final, by rw [parseConfig, done]; rfl, ?_, fun plain => ?_⟩
  · calc final.params.portListHead
        = _ := congrArg ConfigStruct.portListHead params
      _ = _ := step_pathLine ended filled.1
      _ = _ := filled.2
      _ = entries.map ConfigEntry.port := by
        rw [opened.2]
        exact List.nil_append _
  · obtain ⟨pointer, text⟩ := step_plainPath plain (inside _ (by simp)) ended filled.1
    have libcPath : final.params.libcPath = .value 1 :=
      (congrArg ConfigStruct.libcPath params).trans pointer
    have buffer : cString (final.value.drop 1) = path :=
      (congrArg (fun value => cString (value.drop 1)) value).trans text
    rw [libcPath, ParserState.text, buffer]

end Files

end Copy

end BandwidthLimiter
