import BandwidthLimiter.Config.Lines

namespace BandwidthLimiter
open Foundation

/-- The result of the registration, the port table, and the exported path of the C library. -/
structure Registration where
  returnVal : Bool
  env : RegisterEnvStruct
  glibcPath : Option (List Char)

section Copy

variable [OverlappingCopy]

/-- The registration from a file. The value buffer ends with the parser, so `memory` is any text that
its bytes may hold later; a pointer without a text stops the process. -/
def doRegisterFromConfigFile (memory : TextPointer → Option (List Char)) (fuel : Nat)
    (env : RegisterEnvStruct) (file : Option (List Char)) : Option Registration :=
  match parseConfig fuel file with
  | none => none
  | some (status, state) =>
      -- The cast to `bool` is false for zero alone.
      if status ≠ 0 then
        (memory state.params.libcPath).map fun text =>
          { returnVal := true
            env := doRegisterFromConfig state.params.portListHead
            glibcPath := some text }
      else some { returnVal := false, env, glibcPath := none }

/-- The path of a line `LIBC_PATH=[path]`. -/
def libcPathOf (line : List Char) : Option (List Char) :=
  (List.isPrefixOf? "LIBC_PATH=[".toList line).bind fun rest =>
    if ']' ∈ rest then some (rest.takeWhile (· ≠ ']')) else none

/-- The path of the last such line. -/
def lastPath (content : List Char) : Option (List Char) :=
  ((linesOf maxLen content).filterMap libcPathOf).getLast?

/-- A registration exports the last path of a file that the parser has read, and a failed parser
leaves the registration false. -/
def ExportsPath (env : RegisterEnvStruct) (file : Option (List Char)) : Prop :=
  ∀ memory fuel registration status state,
    doRegisterFromConfigFile memory fuel env file = some registration →
    parseConfig fuel file = some (status, state) →
      (registration.returnVal = true → status = 1 ∧ ∃ content path, file = some content ∧
        lastPath content = some path ∧ registration.glibcPath = some path) ∧
      (status ≠ 1 → registration.returnVal = false ∧ registration.glibcPath = none)

section Registration

variable {fuel : Nat} {file : Option (List Char)} {status : Int} {state : ParserState}

/-- The parser has no status that the cast takes for a failure. -/
theorem parseConfig_status (parsed : parseConfig fuel file = some (status, state)) :
    status = if file.isSome then 1 else -1 := by
  cases file with
  | none => exact (Prod.mk.inj (Option.some.inj parsed)).1.symm
  | some content =>
      obtain ⟨final, -, same⟩ := Option.map_eq_some_iff.mp parsed
      exact (Prod.mk.inj same).1.symm

theorem parseConfig_mono {more : Nat} {result : Int × ParserState}
    (done : parseConfig fuel file = some result) (enough : fuel ≤ more) :
    parseConfig more file = some result := by
  cases file with
  | none => exact done
  | some content =>
      obtain ⟨last, loop, same⟩ := Option.map_eq_some_iff.mp done
      rw [parseConfig, parseLoop_mono loop enough, ← same]
      rfl

/-- A registration whose parser returns is true, with the text that the dead pointer leads to. -/
theorem doRegisterFromConfigFile_parsed (memory : TextPointer → Option (List Char))
    (env : RegisterEnvStruct) (parsed : parseConfig fuel file = some (status, state)) :
    doRegisterFromConfigFile memory fuel env file = (memory state.params.libcPath).map fun text =>
      { returnVal := true
        env := doRegisterFromConfig state.params.portListHead
        glibcPath := some text } := by
  have nonzero : status ≠ 0 := by
    rw [parseConfig_status parsed]
    split <;> decide
  rw [doRegisterFromConfigFile, parsed]
  exact if_pos nonzero

/-- The dead buffer may hold another text than the last path. -/
theorem parsed_not_exportsPath (env : RegisterEnvStruct)
    (parsed : parseConfig fuel file = some (status, state)) : ¬ExportsPath env file := by
  intro exports
  let other := ((file.bind lastPath).getD []) ++ ['!']
  have registered := doRegisterFromConfigFile_parsed (fun _ => some other) env parsed
  obtain ⟨-, content, path, rfl, last, exported⟩ :=
    (exports (fun _ => some other) fuel _ status state registered parsed).1 rfl
  have same : other = path := Option.some.inj exported
  simp [other, last] at same

end Registration

/-- A registration exports the last path only where it never returns, since every result of the parser
registers and the pointer to its path is dead. -/
theorem exportsPath_iff (env : RegisterEnvStruct) (file : Option (List Char)) :
    ExportsPath env file ↔
      ∃ content, file = some content ∧ -1 ∈ portCounts 0 (linesOf maxLen content) := by
  constructor
  · intro exports
    cases file with
    | none =>
        have missing : parseConfig 0 none = some (-1, ⟨[], .initial, []⟩) := rfl
        exact absurd exports (parsed_not_exportsPath env missing)
    | some content =>
        refine ⟨content, rfl, ?_⟩
        by_contra finite
        have loop : ∃ fuel final, parseLoop fuel ⟨content, .initial, []⟩ = some final ∧ _ :=
          parseLoop_returns finite
        obtain ⟨fuel, final, done, -⟩ := loop
        have parsed : parseConfig fuel (some content) = some (1, final) := by
          rw [parseConfig, done]
          rfl
        exact parsed_not_exportsPath env parsed exports
  · rintro ⟨content, rfl, endless⟩ memory fuel registration status state - parsed
    rw [parseConfig, parseLoop_endless endless] at parsed
    cases parsed

end Copy

/-- A missing file registers, and the exported path is an unset pointer. -/
theorem missingFile_not_exportsPath : ¬∃ _ : OverlappingCopy, ExportsPath ⟨none⟩ none := by
  rintro ⟨copy, exports⟩
  have registered : doRegisterFromConfigFile (fun _ => some []) 0 ⟨none⟩ none =
      some ⟨true, doRegisterFromConfig [], some []⟩ := rfl
  have failed := (exports _ 0 _ (-1) _ registered rfl).2 (by decide)
  cases failed.1

end BandwidthLimiter
