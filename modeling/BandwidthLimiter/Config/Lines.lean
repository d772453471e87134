import BandwidthLimiter.Foundation.Fuel
import BandwidthLimiter.Config.ParseConfig

namespace BandwidthLimiter
open Foundation

section Copy

variable [OverlappingCopy]

/-- The lines of the file in one pass. The port section still waits for a number of lines. -/
structure Reading where
  pending : Nat
  params : ConfigStruct
  value : List Char

namespace Reading

/-- A line inside the port section is a port, and a line outside assigns a name. -/
def step (reading : Reading) (line : List Char) : Reading :=
  if isSkipped line then reading
  else
    match nameValue line with
    | none => { reading with pending := reading.pending - 1 }
    | some (name, value) =>
        if 0 < reading.pending then
          let portListHead := reading.params.portListHead ++ [(portEntry value).1]
          ⟨reading.pending - 1, { reading.params with portListHead }, (portEntry value).2⟩
        else if name = "NO_PORT".toList then
          ⟨(portCount value).toNat, { reading.params with noPort := some (portCount value) }, value⟩
        else ⟨0, (assignText reading.params name value).1, (assignText reading.params name value).2⟩

def run (reading : Reading) (lines : List (List Char)) : Reading := lines.foldl step reading

/-- The parameters and the buffer, without the count of the port section. -/
def result (reading : Reading) : ConfigStruct × List Char := (reading.params, reading.value)

section Step

variable {reading : Reading} {line name value : List Char}

theorem step_inside (counted : isSkipped line = false) (found : nameValue line = some (name, value))
    (inside : 0 < reading.pending) :
    reading.step line =
      ⟨reading.pending - 1, { reading.params with
        portListHead := reading.params.portListHead ++ [(portEntry value).1] },
        (portEntry value).2⟩ := by
  rw [step, if_neg (by simp [counted]), found]
  exact if_pos inside

theorem step_outside (counted : isSkipped line = false) (found : nameValue line = some (name, value))
    (outside : reading.pending = 0) :
    reading.step line =
      if name = "NO_PORT".toList then
        ⟨(portCount value).toNat, { reading.params with noPort := some (portCount value) }, value⟩
      else ⟨0, (assignText reading.params name value).1, (assignText reading.params name value).2⟩ := by
  rw [step, if_neg (by simp [counted]), found]
  exact if_neg (by simp [outside])

end Step

end Reading

/-- The port count of a line, when its name asks for it. -/
def noPortOf (line : List Char) : Option UInt64 :=
  match nameValue line with
  | none => none
  | some (name, value) => if name = "NO_PORT".toList then some (portCount value) else none

/-- The port counts of the lines outside the port sections. -/
def portCounts : Nat → List (List Char) → List UInt64
  | _, [] => []
  | pending, line :: rest =>
      if isSkipped line then portCounts pending rest
      else if 0 < pending then portCounts (pending - 1) rest
      else
        match noPortOf line with
        | none => portCounts 0 rest
        | some noPort => noPort :: portCounts noPort.toNat rest

/-- Lines without an endless port count keep it out of the port sections. -/
theorem portCounts_finite {lines : List (List Char)}
    (finite : ∀ line ∈ lines, noPortOf line ≠ some (-1)) (pending : Nat) :
    -1 ∉ portCounts pending lines := by
  induction lines generalizing pending with
  | nil => simp [portCounts]
  | cons line rest ih =>
      have tail := ih fun other mem => finite other (by simp [mem])
      rw [portCounts]
      split
      · exact tail pending
      · split
        · exact tail (pending - 1)
        · split
          · exact tail 0
          · rename_i noPort opens
            have bounded : -1 ≠ noPort := fun same => finite line (by simp) (by rw [opens, ← same])
            simp [bounded, tail]

/-- The reading that a state of the parser stands for. -/
def ParserState.reading (state : ParserState) (pending : Nat) : Reading :=
  ⟨pending, state.params, state.value⟩

/-- A later state reads the rest of the lines to the same end. -/
structure Continues (pending : Nat) (state : ParserState) (rest : Nat) (next : ParserState) :
    Prop where
  shorter : next.stream.length ≤ state.stream.length
  counts : -1 ∈ portCounts rest (linesOf maxLen next.stream) ↔
    -1 ∈ portCounts pending (linesOf maxLen state.stream)
  result : ((next.reading rest).run (linesOf maxLen next.stream)).result =
    ((state.reading pending).run (linesOf maxLen state.stream)).result

namespace Continues

variable {first second third : Nat} {state next final : ParserState}

theorem refl (pending : Nat) (state : ParserState) : Continues pending state pending state :=
  ⟨le_refl _, .rfl, rfl⟩

theorem trans (before : Continues first state second next)
    (after : Continues second next third final) : Continues first state third final where
  shorter := after.shorter.trans before.shorter
  counts := after.counts.trans before.counts
  result := after.result.trans before.result

/-- The end of the file leaves nothing to count. -/
theorem atEnd (done : state.stream = []) (pending rest : Nat) :
    Continues pending state rest state where
  shorter := le_refl _
  counts := by rw [done, linesOf_nil, portCounts, portCounts]
  result := by
    rw [done, linesOf_nil]
    rfl

/-- A line moves the state by one step of the reading. -/
theorem line {pending rest : Nat} {line stream : List Char}
    (taken : fgets maxLen state.stream = some (line, stream)) (at_rest : next.stream = stream)
    (stepped : (state.reading pending).step line = next.reading rest)
    (counted : -1 ∈ portCounts pending (line :: linesOf maxLen stream) ↔
      -1 ∈ portCounts rest (linesOf maxLen stream)) :
    Continues pending state rest next where
  shorter := by
    rw [at_rest]
    exact le_of_lt (fgets_rest_length taken)
  counts := by rw [at_rest, linesOf_cons taken, counted]
  result := by rw [at_rest, linesOf_cons taken, Reading.run, Reading.run, List.foldl_cons, stepped]

end Continues

section PortLoop

variable {noPort loop : UInt64} {fuel more pending : Nat} {state final : ParserState}

/-- More fuel keeps the result. -/
theorem portLoop_mono (done : portLoop noPort fuel loop state = some final) (enough : fuel ≤ more) :
    portLoop noPort more loop state = some final := by
  induction fuel generalizing loop state more with
  | zero => cases done
  | succ fuel ih =>
      obtain ⟨more, rfl, spare⟩ := exists_fuel enough
      rw [portLoop] at done ⊢
      split
      · rename_i inside
        rw [if_pos inside] at done
        exact ih done spare
      · rename_i outside
        rwa [if_neg outside] at done

/-- The largest counter never passes the greatest number of 64 bits. -/
theorem portLoop_endless (fuel : Nat) (loop : UInt64) (state : ParserState) :
    portLoop (-1) fuel loop state = none := by
  induction fuel generalizing loop state with
  | zero => rfl
  | succ fuel ih =>
      have inside : loop ≤ -1 := UInt64.le_iff_toNat_le.mpr (Nat.le_of_lt_succ loop.toNat_lt)
      rw [portLoop, if_pos inside]
      exact ih ..

/-- One round of the port loop either counts a line, or it skips one. -/
theorem portBody_continues (loop : UInt64) (state : ParserState) (pending : Nat) :
    (portBody loop state).1 = loop + 1 ∧
        Continues (pending + 1) state pending (portBody loop state).2 ∨
      (portBody loop state).1 = loop ∧
        (portBody loop state).2.stream.length < state.stream.length ∧
        Continues (pending + 1) state (pending + 1) (portBody loop state).2 := by
  unfold portBody
  split
  · rename_i ended
    exact .inl ⟨rfl, .atEnd (fgets_eq_none.mp ended) _ _⟩
  · rename_i line stream taken
    split
    · rename_i skipped
      refine .inr ⟨UInt64.sub_add_cancel .., fgets_rest_length taken, .line taken rfl ?_ ?_⟩
      · rw [Reading.step, if_pos skipped]
        rfl
      · rw [portCounts, if_pos skipped]
    · rename_i counted
      have count : -1 ∈ portCounts (pending + 1) (line :: linesOf maxLen stream) ↔
          -1 ∈ portCounts pending (linesOf maxLen stream) := by
        rw [portCounts, if_neg counted, if_pos (Nat.succ_pos _), Nat.add_sub_cancel]
      split
      · rename_i missing
        refine .inl ⟨rfl, .line taken rfl ?_ count⟩
        rw [Reading.step, if_neg counted, missing]
        rfl
      · rename_i name value found
        refine .inl ⟨rfl, .line taken rfl ?_ count⟩
        rw [Reading.step, if_neg counted, found]
        rfl

/-- A round inside the bound leaves the result to the next rounds. -/
theorem portLoop_round (inside : loop ≤ noPort)
    (done : portLoop noPort fuel (portBody loop state).1 (portBody loop state).2 = some final) :
    portLoop noPort (fuel + 1) loop state = some final := by
  rw [portLoop, if_pos inside]
  exact done

/-- The port loop ends behind its section, when its bound is not the greatest number. -/
theorem portLoop_returns (bounded : noPort ≠ -1)
    (counter : loop.toNat + pending = noPort.toNat + 1) :
    ∃ fuel final, portLoop noPort fuel loop state = some final ∧ Continues pending state 0 final := by
  have below : noPort.toNat < 2 ^ 64 - 1 := by
    have different : noPort.toNat ≠ 2 ^ 64 - 1 := fun same => bounded (UInt64.toNat_inj.mp same)
    have small := noPort.toNat_lt
    omega
  -- Each round counts a line or reads one.
  induction size : state.stream.length + pending using Nat.strong_induction_on
    generalizing loop state pending with
  | h total ih =>
      cases pending with
      | zero =>
          have outside : ¬loop ≤ noPort := by
            rw [UInt64.le_iff_toNat_le]
            omega
          refine ⟨1, state, ?_, .refl 0 state⟩
          rw [portLoop, if_neg outside]
      | succ pending =>
          have inside : loop ≤ noPort := by
            rw [UInt64.le_iff_toNat_le]
            omega
          have wrap : (loop + 1).toNat = loop.toNat + 1 := by
            rw [UInt64.toNat_add]
            exact Nat.mod_eq_of_lt (by simp; omega)
          rcases portBody_continues loop state pending with ⟨next, kept⟩ | ⟨next, shorter, kept⟩
          · have shorter := kept.shorter
            have less : (portBody loop state).2.stream.length + pending < total := by omega
            have ahead : (portBody loop state).1.toNat + pending = noPort.toNat + 1 := by
              rw [next, wrap]
              omega
            obtain ⟨fuel, final, done, rest⟩ := ih _ less ahead rfl
            exact ⟨fuel + 1, final, portLoop_round inside done, kept.trans rest⟩
          · have less : (portBody loop state).2.stream.length + (pending + 1) < total := by omega
            have same : (portBody loop state).1.toNat + (pending + 1) = noPort.toNat + 1 := by
              rw [next, counter]
            obtain ⟨fuel, final, done, rest⟩ := ih _ less same rfl
            exact ⟨fuel + 1, final, portLoop_round inside done, kept.trans rest⟩

end PortLoop

section ParseLoop

variable {line : List Char} {fuel more : Nat} {state final : ParserState}

theorem parseLine_mono (done : parseLine fuel line state = some final) (enough : fuel ≤ more) :
    parseLine more line state = some final := by
  unfold parseLine at done ⊢
  split
  · rename_i skipped
    rwa [if_pos skipped] at done
  · rename_i counted
    rw [if_neg counted] at done
    split at done
    · exact done
    · rename_i name value found
      split at done <;> rename_i named
      · rw [if_pos named]
        exact portLoop_mono done enough
      · rwa [if_neg named]

/-- More fuel keeps the result of the parser. -/
theorem parseLoop_mono (done : parseLoop fuel state = some final) (enough : fuel ≤ more) :
    parseLoop more state = some final := by
  induction fuel generalizing state more with
  | zero => cases done
  | succ fuel ih =>
      obtain ⟨more, rfl, spare⟩ := exists_fuel enough
      rw [parseLoop] at done ⊢
      split
      · rename_i ended
        rwa [ended] at done
      · rename_i line stream taken
        rw [taken] at done
        obtain ⟨next, first, last⟩ := Option.bind_eq_some_iff.mp done
        rw [parseLine_mono first spare]
        exact ih last spare

/-- A line of the outer loop returns, unless it opens a port section without an end. -/
theorem parseLine_returns {stream : List Char}
    (taken : fgets maxLen state.stream = some (line, stream))
    (finite : isSkipped line = true ∨ noPortOf line ≠ some (-1)) :
    ∃ fuel next, parseLine fuel line { state with stream } = some next ∧
      next.stream.length < state.stream.length ∧ Continues 0 state 0 next := by
  have less := fgets_rest_length taken
  unfold parseLine
  split
  · rename_i skipped
    refine ⟨0, _, rfl, less, .line taken rfl ?_ ?_⟩
    · rw [Reading.step, if_pos skipped]
      rfl
    · rw [portCounts, if_pos skipped]
  · rename_i counted
    split
    · rename_i missing
      refine ⟨0, _, rfl, less, .line taken rfl ?_ ?_⟩
      · rw [Reading.step, if_neg counted, missing]
        rfl
      · have closed : noPortOf line = none := by rw [noPortOf, missing]
        simp [portCounts, counted, closed]
    · rename_i name value found
      split
      · rename_i named
        have opens : noPortOf line = some (portCount value) := by
          rw [noPortOf, found]
          exact if_pos named
        have bounded : portCount value ≠ -1 := fun same =>
          finite.elim counted fun closed => closed (by rw [opens, same])
        have moved : Continues 0 state (portCount value).toNat
            ⟨stream, { state.params with noPort := some (portCount value) }, value⟩ := by
          refine .line taken rfl ?_ ?_
          · rw [Reading.step, if_neg counted, found]
            exact if_pos named
          · simp [portCounts, counted, opens, Ne.symm bounded]
        have counter : (1 : UInt64).toNat + (portCount value).toNat = (portCount value).toNat + 1 :=
          Nat.add_comm ..
        obtain ⟨fuel, final, done, kept⟩ := portLoop_returns bounded counter
        exact ⟨fuel, final, done, kept.shorter.trans_lt less, moved.trans kept⟩
      · rename_i other
        refine ⟨0, _, rfl, less, .line taken rfl ?_ ?_⟩
        · rw [Reading.step, if_neg counted, found]
          exact if_neg other
        · have closed : noPortOf line = none := by
            rw [noPortOf, found]
            exact if_neg other
          simp [portCounts, counted, closed]

/-- A line that opens a port section without an end stops the parser. -/
theorem parseLine_endless {stream : List Char} (counted : isSkipped line = false)
    (opens : noPortOf line = some (-1)) (fuel : Nat) :
    parseLine fuel line { state with stream } = none := by
  cases found : nameValue line with
  | none =>
      rw [noPortOf, found] at opens
      cases opens
  | some pair =>
      obtain ⟨name, value⟩ := pair
      rw [noPortOf, found] at opens
      obtain ⟨named, endless⟩ := Option.ite_none_right_eq_some.mp opens
      rw [parseLine, if_neg (by simp [counted]), found]
      simp only [if_pos named, Option.some.inj endless, portLoop_endless]

/-- A line either returns, or it opens a port section without an end. -/
theorem finite_or_opens (line : List Char) : (isSkipped line = true ∨ noPortOf line ≠ some (-1)) ∨
    isSkipped line = false ∧ noPortOf line = some (-1) := by
  rcases isSkipped line with _ | _ <;> tauto

/-- The parser returns after finitely many rounds, when no port count is the greatest number. -/
theorem parseLoop_returns (finite : -1 ∉ portCounts 0 (linesOf maxLen state.stream)) :
    ∃ fuel final, parseLoop fuel state = some final ∧ final.stream = [] ∧
      Continues 0 state 0 final := by
  induction size : state.stream.length using Nat.strong_induction_on generalizing state with
  | h size ih =>
      cases taken : fgets maxLen state.stream with
      | none =>
          refine ⟨1, state, ?_, fgets_eq_none.mp taken, .refl 0 state⟩
          rw [parseLoop, taken]
      | some pair =>
          obtain ⟨line, stream⟩ := pair
          rcases finite_or_opens line with bounded | ⟨counted, opens⟩
          · obtain ⟨first, next, done, less, kept⟩ := parseLine_returns taken bounded
            obtain ⟨second, final, rest, ended, last⟩ :=
              ih _ (size ▸ less) (fun mem => finite (kept.counts.mp mem)) rfl
            refine ⟨max first second + 1, final, ?_, ended, kept.trans last⟩
            rw [parseLoop, taken]
            simp only [parseLine_mono done (le_max_left first second), Option.bind_some]
            exact parseLoop_mono rest (le_max_right first second)
          · refine absurd ?_ finite
            rw [linesOf_cons taken]
            simp [portCounts, counted, opens]

/-- A port count that is the greatest number stops the parser. -/
theorem parseLoop_endless (endless : -1 ∈ portCounts 0 (linesOf maxLen state.stream)) (fuel : Nat) :
    parseLoop fuel state = none := by
  induction fuel generalizing state with
  | zero => rfl
  | succ fuel ih =>
      rw [parseLoop]
      split
      · rename_i ended
        rw [fgets_eq_none.mp ended, linesOf_nil] at endless
        cases endless
      · rename_i line stream taken
        rcases finite_or_opens line with bounded | ⟨counted, opens⟩
        · obtain ⟨enough, next, done, -, kept⟩ := parseLine_returns taken bounded
          cases first : parseLine fuel line { state with stream } with
          | none => rfl
          | some other =>
              have same := fuel_unique (parseLine · line { state with stream }) parseLine_mono first
                done
              rw [Option.bind_some, same]
              exact ih (kept.counts.mpr endless)
        · rw [parseLine_endless counted opens, Option.bind_none]

end ParseLoop

/-- The parser returns exactly when no line outside the port sections asks for the greatest number of
ports. -/
theorem parseConfig_returns_iff (file : Option (List Char)) :
    (∃ fuel result, parseConfig fuel file = some result) ↔
      ∀ content, file = some content → -1 ∉ portCounts 0 (linesOf maxLen content) := by
  cases file with
  | none => exact ⟨fun _ _ same => (by cases same), fun _ => ⟨0, _, rfl⟩⟩
  | some content =>
      constructor
      · rintro ⟨fuel, result, done⟩ other same endless
        cases same
        rw [parseConfig, parseLoop_endless endless] at done
        cases done
      · intro finite
        have loop : ∃ fuel final, parseLoop fuel ⟨content, .initial, []⟩ = some final ∧ _ :=
          parseLoop_returns (finite content rfl)
        obtain ⟨fuel, final, done, -⟩ := loop
        exact ⟨fuel, (1, final), by rw [parseConfig, done]; rfl⟩

set_option maxRecDepth 4000 in
theorem noPortOf_negative : noPortOf "NO_PORT=-1\n".toList = some (-1) := by
  with_unfolding_all rfl

end Copy

/-- A port count of −1 keeps the parser in its port loop after the end of the file. -/
theorem negativeCount_endless : ¬∃ (_ : OverlappingCopy) (fuel : Nat) (result : Int × ParserState),
    parseConfig fuel (some "NO_PORT=-1\n".toList) = some result := by
  have taken : fgets maxLen "NO_PORT=-1\n".toList = some ("NO_PORT=-1\n".toList, []) := by decide
  have counted : isSkipped "NO_PORT=-1\n".toList = false := by decide
  rintro ⟨copy, fuel, result, done⟩
  have endless : -1 ∈ portCounts 0 (linesOf maxLen "NO_PORT=-1\n".toList) := by
    rw [linesOf_cons taken, linesOf_nil, portCounts, counted, noPortOf_negative]
    simp
  rw [parseConfig, parseLoop_endless endless] at done
  cases done

end BandwidthLimiter
