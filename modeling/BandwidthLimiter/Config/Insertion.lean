import BandwidthLimiter.Config.Render

namespace BandwidthLimiter
open Foundation

/-- The content of a file whose lines all end with a newline. -/
def fileText (lines : List (List Char)) : List Char := lines.flatMap (· ++ ['\n'])

/-- The lines of a text file fit the line buffer. -/
def FitsLine (line : List Char) : Prop := '\n' ∉ line ∧ line.length < 1023

instance (line : List Char) : Decidable (FitsLine line) := inferInstanceAs (Decidable (_ ∧ _))

/-- The lines as the line buffer receives them. -/
def readLines (lines : List (List Char)) : List (List Char) := lines.map (· ++ ['\n'])

theorem linesOf_fileText {lines : List (List Char)} (fits : ∀ line ∈ lines, FitsLine line) :
    linesOf maxLen (fileText lines) = readLines lines := by
  induction lines with
  | nil => exact linesOf_nil maxLen
  | cons line rest ih =>
      obtain ⟨plain, short⟩ := fits line (by simp)
      have tail := ih fun other mem => fits other (by simp [mem])
      have room : line.length + 1 < maxLen := by
        simp only [maxLen]
        omega
      have split : fileText (line :: rest) = line ++ '\n' :: fileText rest := by simp [fileText]
      rw [split, linesOf_line plain room, tail]
      rfl

section Copy

variable [OverlappingCopy]

/-- The parser returns with this list of ports. -/
def Parses (content : List Char) (ports : List PortStr) : Prop :=
  ∃ fuel status state, parseConfig fuel (some content) = some (status, state) ∧
    state.params.portListHead = ports

/-- The lines that carry no setting. -/
def NoSetting (line : List Char) : Prop :=
  line = [] ∨ line.head? = some '#' ∨ (∀ c ∈ line, c = ' ' ∨ c = '\t' ∨ c = '\r') ∨ '=' ∉ line

/-- The number of lines for which the port section still waits. -/
def pendingAfter : Nat → List (List Char) → Nat
  | pending, [] => pending
  | pending, line :: rest =>
      if isSkipped line then pendingAfter pending rest
      else if 0 < pending then pendingAfter (pending - 1) rest
      else pendingAfter ((noPortOf line).elim 0 UInt64.toNat) rest

/-- The ports of the lines. -/
def sectionPorts : Nat → List (List Char) → List PortStr
  | _, [] => []
  | pending, line :: rest =>
      if isSkipped line then sectionPorts pending rest
      else if 0 < pending then
        ((nameValue line).map fun pair => (portEntry pair.2).1).toList ++
          sectionPorts (pending - 1) rest
      else sectionPorts ((noPortOf line).elim 0 UInt64.toNat) rest

/-- The last line that the port section takes, and the lines behind it. -/
def sectionLast : Nat → List (List Char) → Option (List Char × List (List Char))
  | _, [] => none
  | pending, line :: rest =>
      if isSkipped line then sectionLast pending rest
      else if pending ≤ 1 then some (line, rest)
      else sectionLast (pending - 1) rest

/-- The first port of a section that waits for this number of lines. -/
def firstPort : Nat → List (List Char) → Option PortStr
  | _, [] => none
  | pending, line :: rest =>
      if isSkipped line then firstPort pending rest
      else if pending = 0 then none
      else
        match nameValue line with
        | none => firstPort (pending - 1) rest
        | some (_, value) => some (portEntry value).1

/-- The inserted line takes no place in a port section, or the line that loses its place there does
not exist or has no value. -/
def Insertable (first second : List (List Char)) (extra : List Char) : Prop :=
  isSkipped (extra ++ ['\n']) = true ∨ pendingAfter 0 (readLines first) = 0 ∨
    ∀ last rest, sectionLast (pendingAfter 0 (readLines first)) (readLines second) =
      some (last, rest) → nameValue last = none

/-- The line that loses its place in the section is itself a port count, and the section that it then
opens starts with the port that the line was. -/
def Repeats (first second : List (List Char)) : Prop :=
  ∃ last rest noPort name value,
    sectionLast (pendingAfter 0 (readLines first)) (readLines second) = some (last, rest) ∧
      nameValue last = some (name, value) ∧ noPortOf last = some noPort ∧
      firstPort noPort.toNat rest = some (portEntry value).1

section Lines

variable {line : List Char} {first second lines : List (List Char)} {pending : Nat}

theorem noPortOf_missing (missing : nameValue line = none) : noPortOf line = none := by
  rw [noPortOf, missing]

/-- A line without an equals sign has no value. -/
theorem nameValue_missing (missing : '=' ∉ line) : nameValue line = none := by
  have absent : ∀ c ∈ line ++ ['\x00'], c ∉ ['='] := by
    intro c mem
    rcases List.mem_append.mp mem with inside | last
    · exact fun same => missing (List.mem_singleton.mp same ▸ inside)
    · rw [List.mem_singleton.mp last]
      decide
  by_cases empty : cString ((line ++ ['\x00']).drop 0) = []
  · simp only [nameValue, strtok_absent absent, if_pos empty]
  · have ended : cString ((line ++ ['\x00']).drop
        (0 + (cString ((line ++ ['\x00']).drop 0)).length)) = [] := by
      rw [← List.drop_drop, cString_end]
    simp only [nameValue, strtok_absent absent, if_neg empty, if_pos ended]

/-- A line without a setting is skipped, or it has no value. -/
theorem NoSetting.skipped_or_missing (silent : NoSetting line) :
    isSkipped (line ++ ['\n']) = true ∨ nameValue (line ++ ['\n']) = none := by
  have without (missing : '=' ∉ line) : nameValue (line ++ ['\n']) = none :=
    nameValue_missing (by simp [missing])
  rcases silent with rfl | comment | blank | missing
  · exact .inl rfl
  · obtain ⟨rest, rfl⟩ := List.head?_eq_some_iff.mp comment
    exact .inl rfl
  · refine .inr (without fun mem => ?_)
    rcases blank _ mem with same | same | same <;> cases same
  · exact .inr (without missing)

/-- A counted line without a value only shortens the section. -/
theorem Reading.step_missing {reading : Reading} (counted : isSkipped line = false)
    (missing : nameValue line = none) :
    reading.step line = { reading with pending := reading.pending - 1 } := by
  rw [Reading.step, if_neg (by simp [counted]), missing]

/-- The reading of the lines adds their ports to the list. -/
theorem Reading.run_ports (reading : Reading) (lines : List (List Char)) :
    (reading.run lines).params.portListHead =
      reading.params.portListHead ++ sectionPorts reading.pending lines := by
  induction lines generalizing reading with
  | nil => simp [Reading.run, sectionPorts]
  | cons line rest ih =>
      rw [show reading.run (line :: rest) = (reading.step line).run rest from rfl, ih, sectionPorts]
      cases visible : isSkipped line with
      | true => rw [Reading.step, if_pos visible, if_pos rfl]
      | false =>
          cases found : nameValue line with
          | none =>
              rw [Reading.step_missing visible found, noPortOf_missing found]
              by_cases inside : 0 < reading.pending
              · simp [inside]
              · simp [Nat.eq_zero_of_not_pos inside]
          | some pair =>
              obtain ⟨name, value⟩ := pair
              by_cases inside : 0 < reading.pending
              · rw [Reading.step_inside visible found inside]
                simp [inside]
              · rw [Reading.step_outside visible found (Nat.eq_zero_of_not_pos inside), noPortOf, found]
                split <;> simp_all [assignText_portListHead]

theorem sectionPorts_append (pending : Nat) (first second : List (List Char)) :
    sectionPorts pending (first ++ second) =
      sectionPorts pending first ++ sectionPorts (pendingAfter pending first) second := by
  induction first generalizing pending with
  | nil => rfl
  | cons line rest ih =>
      simp only [List.cons_append, sectionPorts, pendingAfter, ih]
      split_ifs <;> simp

theorem portCounts_append (pending : Nat) (first second : List (List Char)) :
    portCounts pending (first ++ second) =
      portCounts pending first ++ portCounts (pendingAfter pending first) second := by
  induction first generalizing pending with
  | nil => rfl
  | cons line rest ih =>
      simp only [List.cons_append, portCounts, pendingAfter, ih]
      split_ifs
      · rfl
      · rfl
      · cases noPortOf line <;> rfl

/-- The parser returns exactly when no port count is endless, and then with these ports. -/
theorem parses_iff (fits : ∀ line ∈ lines, FitsLine line) (ports : List PortStr) :
    Parses (fileText lines) ports ↔ -1 ∉ portCounts 0 (readLines lines) ∧
      ports = sectionPorts 0 (readLines lines) := by
  have content := linesOf_fileText fits
  rw [← content]
  have known (finite : -1 ∉ portCounts 0 (linesOf maxLen (fileText lines))) :
      ∃ fuel final, parseLoop fuel ⟨fileText lines, .initial, []⟩ = some final ∧
        final.params.portListHead = sectionPorts 0 (linesOf maxLen (fileText lines)) := by
    have loop : ∃ fuel final, parseLoop fuel ⟨fileText lines, .initial, []⟩ = some final ∧
        final.stream = [] ∧ _ := parseLoop_returns finite
    obtain ⟨fuel, final, done, empty, kept⟩ := loop
    have result := kept.result
    rw [empty, linesOf_nil] at result
    refine ⟨fuel, final, done, ?_⟩
    calc final.params.portListHead
        = _ := congrArg ConfigStruct.portListHead (Prod.mk.inj result).1
      _ = _ := Reading.run_ports _ _
      _ = _ := List.nil_append _
  constructor
  · rintro ⟨fuel, status, state, done, rfl⟩
    obtain ⟨other, run, same⟩ := Option.map_eq_some_iff.mp done
    have finite : -1 ∉ portCounts 0 (linesOf maxLen (fileText lines)) := by
      intro endless
      rw [parseLoop_endless endless] at run
      cases run
    obtain ⟨more, final, loop, ports⟩ := known finite
    obtain ⟨-, rfl⟩ := Prod.mk.inj same
    obtain rfl := fuel_unique (parseLoop · _) parseLoop_mono run loop
    exact ⟨finite, ports⟩
  · rintro ⟨finite, rfl⟩
    obtain ⟨fuel, final, loop, ports⟩ := known finite
    exact ⟨fuel, 1, final, by rw [parseConfig, loop]; rfl, ports⟩

end Lines

section Shift

variable {line extra : List Char} {first second rest : List (List Char)} {pending : Nat}

/-- The last line of a section says the same outside it. -/
def Dispensable (last : List Char) (rest : List (List Char)) : Prop :=
  -1 ∉ (match noPortOf last with
      | none => portCounts 0 rest
      | some noPort => noPort :: portCounts noPort.toNat rest) ∧
    sectionPorts ((noPortOf last).elim 0 UInt64.toNat) rest =
      ((nameValue last).map fun pair => (portEntry pair.2).1).toList ++ sectionPorts 0 rest

theorem dispensable_of_missing (finite : -1 ∉ portCounts 0 rest) (missing : nameValue line = none) :
    Dispensable line rest := by
  simp [Dispensable, missing, noPortOf_missing missing, finite]

/-- A section with one more port in front starts with this port. -/
theorem firstPort_of_cons {port : PortStr} {lines : List (List Char)}
    (longer : sectionPorts pending lines = port :: sectionPorts 0 lines) :
    firstPort pending lines = some port := by
  induction lines generalizing pending with
  | nil => simp [sectionPorts] at longer
  | cons line rest ih =>
      rw [firstPort]
      cases visible : isSkipped line with
      | true =>
          simp only [sectionPorts, visible, if_true] at longer
          exact ih longer
      | false =>
          rcases Nat.eq_zero_or_pos pending with rfl | inside
          · have lengths := congrArg List.length longer
            simp at lengths
          · have waits : pending ≠ 0 := Nat.ne_of_gt inside
            simp only [sectionPorts, visible, Bool.false_eq_true, if_false, inside, if_true,
              Nat.lt_irrefl] at longer
            cases found : nameValue line with
            | none =>
                rw [found, noPortOf_missing found] at longer
                simpa [waits] using ih longer
            | some pair =>
                rw [found] at longer
                simp only [Option.map_some, Option.toList_some, List.singleton_append,
                  List.cons.injEq] at longer
                simp [waits, longer.1]

/-- A dispensable line has no value, or it opens a section that starts with its own port. -/
theorem Dispensable.missing_or_repeats (dispensable : Dispensable line rest) :
    nameValue line = none ∨ ∃ noPort name value, nameValue line = some (name, value) ∧
      noPortOf line = some noPort ∧ firstPort noPort.toNat rest = some (portEntry value).1 := by
  obtain ⟨-, same⟩ := dispensable
  cases found : nameValue line with
  | none => exact .inl rfl
  | some pair =>
      obtain ⟨name, value⟩ := pair
      rw [found] at same
      cases opens : noPortOf line with
      | none => simp [opens] at same
      | some noPort =>
          rw [opens] at same
          exact .inr ⟨noPort, name, value, rfl, rfl, firstPort_of_cons same⟩

/-- A section that is one line shorter gives the same ports exactly when its last line may fall out
of it. -/
theorem shorter_section (inside : 0 < pending) (finite : -1 ∉ portCounts pending second) :
    (-1 ∉ portCounts (pending - 1) second ∧
        sectionPorts (pending - 1) second = sectionPorts pending second) ↔
      ∀ last rest, sectionLast pending second = some (last, rest) → Dispensable last rest := by
  induction second generalizing pending with
  | nil => simp [portCounts, sectionPorts, sectionLast]
  | cons line rest ih =>
      cases visible : isSkipped line with
      | true =>
          simp only [portCounts, sectionPorts, sectionLast, visible, if_true] at finite ⊢
          exact ih inside finite
      | false =>
          simp only [portCounts, sectionPorts, sectionLast, visible, Bool.false_eq_true, if_false,
            inside, if_true] at finite ⊢
          by_cases last : pending = 1
          · subst last
            simp only [Nat.sub_self, Nat.lt_irrefl, if_false, le_refl, if_true, Option.some.injEq,
              Prod.mk.injEq, and_imp, forall_apply_eq_imp_iff, forall_eq'] at finite ⊢
            rfl
          · have more : 0 < pending - 1 := by omega
            have deeper : ¬pending ≤ 1 := by omega
            simp only [more, deeper, if_true, if_false, List.append_cancel_left_eq]
            exact ih more finite

/-- The parse before and behind a position. -/
theorem parses_append_iff {ports : List PortStr} (fits : ∀ line ∈ first ++ second, FitsLine line) :
    Parses (fileText (first ++ second)) ports ↔
      -1 ∉ portCounts 0 (readLines first) ∧
      -1 ∉ portCounts (pendingAfter 0 (readLines first)) (readLines second) ∧
      ports = sectionPorts 0 (readLines first) ++
        sectionPorts (pendingAfter 0 (readLines first)) (readLines second) := by
  rw [parses_iff fits, readLines, List.map_append, portCounts_append, sectionPorts_append,
    List.mem_append, not_or, and_assoc]
  rfl

/-- A line that is not skipped takes one place of the section, and a dispensable line may lose it. -/
theorem insertion_iff_dispensable {ports : List PortStr}
    (fits : ∀ line ∈ first ++ extra :: second, FitsLine line)
    (silent : NoSetting extra) (parsed : Parses (fileText (first ++ second)) ports) :
    Parses (fileText (first ++ extra :: second)) ports ↔
      isSkipped (extra ++ ['\n']) = true ∨ pendingAfter 0 (readLines first) = 0 ∨
        ∀ last rest, sectionLast (pendingAfter 0 (readLines first)) (readLines second) =
          some (last, rest) → Dispensable last rest := by
  have others : ∀ line ∈ first ++ second, FitsLine line := by
    intro line mem
    apply fits line
    simp only [List.mem_append, List.mem_cons] at mem ⊢
    tauto
  obtain ⟨before, behind, rfl⟩ := (parses_append_iff others).mp parsed
  rw [parses_append_iff fits]
  simp only [before, not_false_eq_true, true_and, List.append_cancel_left_eq,
    show readLines (extra :: second) = (extra ++ ['\n']) :: readLines second from rfl]
  generalize pendingAfter 0 (readLines first) = pending at behind ⊢
  cases visible : isSkipped (extra ++ ['\n']) with
  | true => simp [portCounts, sectionPorts, visible, behind]
  | false =>
      have missing : nameValue (extra ++ ['\n']) = none := by
        simpa [visible] using silent.skipped_or_missing
      by_cases inside : 0 < pending
      · have shifted := shorter_section inside behind
        have waits : pending ≠ 0 := Nat.ne_of_gt inside
        simpa [portCounts, sectionPorts, visible, missing, inside, waits, eq_comm] using shifted
      · obtain rfl := Nat.eq_zero_of_not_pos inside
        simp [portCounts, sectionPorts, visible, noPortOf_missing missing, behind]

/-- The last line of a section and the lines behind it count no endless section. -/
theorem sectionLast_finite {last : List Char} {lines : List (List Char)}
    (finite : -1 ∉ portCounts pending lines) (inside : 0 < pending)
    (ends : sectionLast pending lines = some (last, rest)) : -1 ∉ portCounts 0 rest := by
  induction lines generalizing pending with
  | nil => cases ends
  | cons line lines ih =>
      rw [sectionLast] at ends
      rw [portCounts] at finite
      cases visible : isSkipped line with
      | true =>
          simp only [visible, if_true] at ends finite
          exact ih finite inside ends
      | false =>
          simp only [visible, Bool.false_eq_true, if_false, inside, if_true] at ends finite
          split at ends
          · rename_i only
            obtain rfl : pending = 1 := by omega
            obtain ⟨-, rfl⟩ := Prod.mk.inj (Option.some.inj ends)
            exact finite
          · exact ih finite (by omega) ends

/-- A line without a setting keeps the parse where it takes no place of a setting, and it keeps the
parse elsewhere only where the line that loses its place repeats itself. -/
theorem insertion_keeps {ports : List PortStr}
    (fits : ∀ line ∈ first ++ extra :: second, FitsLine line)
    (silent : NoSetting extra) (parsed : Parses (fileText (first ++ second)) ports) :
    (Insertable first second extra → Parses (fileText (first ++ extra :: second)) ports) ∧
      (Parses (fileText (first ++ extra :: second)) ports →
        Insertable first second extra ∨ Repeats first second) := by
  have others : ∀ line ∈ first ++ second, FitsLine line := by
    intro line mem
    apply fits line
    simp only [List.mem_append, List.mem_cons] at mem ⊢
    tauto
  have behind := ((parses_append_iff others).mp parsed).2.1
  rw [insertion_iff_dispensable fits silent parsed]
  constructor
  · rintro (skipped | outside | silentLast)
    · exact .inl skipped
    · exact .inr (.inl outside)
    · rcases Nat.eq_zero_or_pos (pendingAfter 0 (readLines first)) with outside | inside
      · exact .inr (.inl outside)
      · exact .inr (.inr fun last rest ends =>
          dispensable_of_missing (sectionLast_finite behind inside ends) (silentLast last rest ends))
  · rintro (skipped | outside | dispensable)
    · exact .inl (.inl skipped)
    · exact .inl (.inr (.inl outside))
    · cases ends : sectionLast (pendingAfter 0 (readLines first)) (readLines second) with
      | none => exact .inl (.inr (.inr fun last rest found => by simp [ends] at found))
      | some pair =>
          obtain ⟨last, rest⟩ := pair
          rcases (dispensable last rest ends).missing_or_repeats with
            missing | ⟨noPort, name, value, found, opens, starts⟩
          · refine .inl (.inr (.inr fun other behind' found => ?_))
            obtain ⟨rfl, -⟩ := Prod.mk.inj (Option.some.inj (ends.symm.trans found))
            exact missing
          · exact .inr ⟨last, rest, noPort, name, value, ends, found, opens, starts⟩

end Shift

section BlankLine

def onePortLine : List Char := "NO_PORT=1".toList

def portLine : List Char := "A=[80,5,5,0]".toList

theorem noPortOf_onePortLine : noPortOf (onePortLine ++ ['\n']) = some 1 := by
  have read_line : IsRead (countLine 1) (onePortLine ++ ['\n']) := .inr (by decide)
  obtain ⟨junk, found⟩ := nameValue_countLine (by decide) read_line
  rw [noPortOf, found]
  exact congrArg some (UInt64.toNat_inj.mp (portCount_decimal (by decide) junk))

/-- The port line has this port. -/
theorem nameValue_portLine : ∃ value, nameValue (portLine ++ ['\n']) = some ("A".toList, value) ∧
    (portEntry value).1 = ⟨80, 5, 5, 0⟩ := by
  have read_line : IsRead ("A".toList ++ '=' :: ('[' :: ((PortStr.mk 80 5 5 0).fields ++ [']'])))
      (portLine ++ ['\n']) := .inr (by decide)
  have plain (c : Char) (mem : c ∈ (PortStr.mk 80 5 5 0).fields) : c ≠ '=' ∧ c ≠ '\x00' :=
    ⟨(PortStr.mem_fields mem).2.2.2.1, (PortStr.mem_fields mem).2.2.1⟩
  have name (c : Char) (mem : c ∈ "A".toList) : c ≠ '=' ∧ c ≠ '\x00' := by
    obtain rfl := List.mem_singleton.mp mem
    decide
  obtain ⟨junk, found⟩ := nameValue_bracket (by decide) name plain (by decide) read_line
  exact ⟨_, found, portEntry_fields ⟨by decide, by decide, by decide, by decide⟩ junk⟩

theorem onePort_parses : Parses (fileText ([onePortLine] ++ [portLine])) [⟨80, 5, 5, 0⟩] := by
  obtain ⟨value, found, port⟩ := nameValue_portLine
  have first : isSkipped (onePortLine ++ ['\n']) = false := by decide
  have second : isSkipped (portLine ++ ['\n']) = false := by decide
  refine (parses_iff (by decide) _).mpr ⟨?_, ?_⟩
  · have other : (-1 : UInt64) ≠ 1 := by decide
    simp [readLines, portCounts, first, second, noPortOf_onePortLine, other]
  · simp [readLines, sectionPorts, first, second, noPortOf_onePortLine, found, port]

/-- A line of one space takes the place of the port in the section. -/
theorem blank_not_parses :
    ¬Parses (fileText ([onePortLine] ++ [' '] :: [portLine])) [⟨80, 5, 5, 0⟩] := by
  have first : isSkipped (onePortLine ++ ['\n']) = false := by decide
  have second : isSkipped (portLine ++ ['\n']) = false := by decide
  have space : isSkipped ([' '] ++ ['\n']) = false := by decide
  have missing : nameValue ([' '] ++ ['\n']) = none := nameValue_missing (by decide)
  intro parsed
  have same := ((parses_iff (by decide) _).mp parsed).2
  simp [readLines, sectionPorts, first, second, noPortOf_onePortLine,
    show isSkipped [' ', '\n'] = false from space,
    show nameValue [' ', '\n'] = none from missing] at same

end BlankLine

end Copy

attribute [local instance] OverlappingCopy.leftToRight in
/-- A comment keeps the port of the section. -/
theorem comment_insertion : Parses (fileText ([onePortLine] ++ ['#'] :: [portLine])) [⟨80, 5, 5, 0⟩] :=
  (insertion_keeps (by decide) (.inr (.inl rfl)) onePort_parses).1 (.inl rfl)

/-- With no copy does a line of one space keep every parse. -/
theorem blankLine_dropsPort : ¬∃ _ : OverlappingCopy,
    ∀ (first second : List (List Char)) (extra : List Char) (ports : List PortStr),
      (∀ line ∈ first ++ extra :: second, FitsLine line) → NoSetting extra →
        Parses (fileText (first ++ second)) ports →
          Parses (fileText (first ++ extra :: second)) ports := by
  rintro ⟨copy, kept⟩
  exact blank_not_parses (kept [onePortLine] [portLine] [' '] _ (by decide)
    (.inr (.inr (.inr (by decide)))) onePort_parses)

end BandwidthLimiter
