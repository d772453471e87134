import BandwidthLimiter.Foundation.Concat
import BandwidthLimiter.Launcher.Command
import BandwidthLimiter.Launcher.Getopt

namespace BandwidthLimiter
open Foundation

def maxPathLength : Nat := 256

def libName : List Char := "BandwidthLimiter/build-32/libc_band.so".toList

/-- What `main` hands over to `execvp`, with the memories that it used. -/
structure Launch where
  command : Memory Char
  argv2 : Memory (Option Int)
  buff : Memory Char
  environment : Environment

/-- The ways in which `main` ends before the command runs. -/
inductive MainEnd where
  | usage
  | getcwdError
  -- An argument is printed that was never stored.
  | unsetArgument
  | execute (launch : Launch)

/-- The path of the working directory; `none` is a directory that was removed or cannot be read, and
a path has no place when its NUL byte is behind the buffer. -/
def getcwd (directory : Option (List Char)) (size : Nat) (memory : Memory Char) : Option (Memory Char) :=
  directory.bind fun path => if path.length < size then some (storeText memory 0 path) else none

/-- A print of an argument; an element of the array that was never written is no argument. -/
def printArgument (argv2 : Memory (Option Int)) (k : Int) : Option (Memory (Option Int)) :=
  if k ∈ argv2.touched then some (argv2.load k) else none

/-- The function `execute` up to `execvp`. -/
def execute (argv2 : Memory (Option Int)) : Option (Memory (Option Int)) := do
  let argv2 ← printArgument argv2 0
  printArgument argv2 1

/-- The library in the build directory, and the call of `execute`. -/
def preload (fuel : Nat) (command : Memory Char) (argv2 : Memory (Option Int)) (buff : Memory Char)
    (environment : Environment) : Option MainEnd := do
  let buff ← strcat fuel buff ['/']
  let buff ← strcat fuel buff libName
  let (library, buff) ← readText fuel buff 0
  let environment := setenv environment "LD_PRELOAD" library
  match (printArgument argv2 0).bind execute with
  | none => return .unsetArgument
  | some argv2 => return .execute { command, argv2, buff, environment }

/-- The function `main` of the launcher; `none` means that the fuel runs out. -/
def main (fuel : Nat) (words : List (List Char)) (environment : Environment)
    (directory : Option (List Char)) (buff : Int → Char) (argv2 : Int → Option Int) :
    Option MainEnd := do
  match ← resilienceMain fuel words environment with
  | none => return .usage
  | some (command, environment) =>
      let (command, argv2) ← parse fuel (.untouched (stringAt command)) 0 (.untouched argv2) 0
      match getcwd directory maxPathLength (.untouched buff) with
      | none => return .getcwdError
      | some buff => preload fuel command argv2 buff environment

/-- The launch of a command in an environment and a working directory. -/
structure Launched (command : List Char) (after : Environment) (path : List Char) (launch : Launch) :
    Prop where
  environment : launch.environment = setenv after "LD_PRELOAD" ((path ++ ['/']) ++ libName)
  split : ∃ pointers, Stores launch.argv2.content 0 (pointers.map some ++ [none]) ∧
    List.Forall₂ (fun p argument => Stores launch.command.content p (argument ++ ['\x00'])) pointers
      (arguments command)
  buff : (∀ j ∈ launch.buff.touched, 0 ≤ j ∧ j < maxPathLength) ↔ path.length ≤ 216
  argv2 : (∀ j ∈ launch.argv2.touched, 0 ≤ j ∧ j < argv2Size) ↔ (arguments command).length ≤ 63

/-- The end of `main` for the options that it handles: they need the usage text, the working directory
has no path that fits, the command is empty and so has no second element to print, or the command is
launched. -/
inductive MainEnds (options : List (Char × List Char)) (environment : Environment)
    (directory : Option (List Char)) : MainEnd → Prop where
  | usage (needs : NeedsUsage options) : MainEnds options environment directory .usage
  | getcwdError (complete : ¬NeedsUsage options)
      (long : ∀ path ∈ directory, maxPathLength ≤ path.length) :
      MainEnds options environment directory .getcwdError
  | unsetArgument {path : List Char} (complete : ¬NeedsUsage options) (found : directory = some path)
      (short : path.length < maxPathLength) (empty : lastOf ['c', 'C'] [] options = []) :
      MainEnds options environment directory .unsetArgument
  | execute {path : List Char} {after : Environment} {launch : Launch}
      (complete : ¬NeedsUsage options) (found : directory = some path)
      (short : path.length < maxPathLength) (full : lastOf ['c', 'C'] [] options ≠ [])
      (exported : Exported options environment after)
      (launched : Launched (lastOf ['c', 'C'] [] options) after path launch) :
      MainEnds options environment directory (.execute launch)

section Launches

variable {fuel : Nat} {path : List Char}

/-- Positions from 0 on are inside a buffer when the last of them is. -/
theorem touched_inside_iff {A : Type} {memory : Memory A} {length size : Nat}
    (touched : ∀ j, j ∈ memory.touched ↔ 0 ≤ j ∧ j ≤ (length : Int)) :
    (∀ j ∈ memory.touched, 0 ≤ j ∧ j < (size : Int)) ↔ length < size := by
  constructor
  · intro inside
    have last := inside length ((touched _).mpr ⟨by omega, le_rfl⟩)
    omega
  · intro fits j mem
    have range := (touched j).mp mem
    omega

/-- The prints before `execvp` find their two elements when there is an argument. -/
theorem execute_spec {argv2 : Memory (Option Int)} {count : Nat}
    (written : ∀ j, j ∈ argv2.touched ↔ 0 ≤ j ∧ j ≤ (count : Int)) :
    (printArgument argv2 0).bind execute =
      if count = 0 then none else some (((argv2.load 0).load 0).load 1) := by
  have first : 0 ∈ argv2.touched := (written 0).mpr ⟨le_rfl, by omega⟩
  have second : 1 ∈ argv2.touched ↔ count ≠ 0 := by
    rw [written]
    omega
  by_cases none : count = 0
  · simp [printArgument, execute, first, second, none]
  · simp [printArgument, execute, first, second, none]

/-- The path of the library goes into the buffer, and its NUL byte is the last byte that is
touched. -/
theorem preload_spec (command : Memory Char) (argv2 : Memory (Option Int)) (buff : Int → Char)
    (environment : Environment) (plain : '\x00' ∉ path)
    (enough : path.length + libName.length + 1 < fuel) :
    ∃ after, preload fuel command argv2 (storeText (.untouched buff) 0 path) environment =
        some (match (printArgument argv2 0).bind execute with
          | none => .unsetArgument
          | some argv2 => .execute
              ⟨command, argv2, after, setenv environment "LD_PRELOAD" ((path ++ ['/']) ++ libName)⟩) ∧
      ∀ j, j ∈ after.touched ↔ 0 ≤ j ∧ j ≤ (((path ++ ['/']) ++ libName).length : Int) := by
  obtain ⟨stored, -, first⟩ := storeText_spec (.untouched buff) 0 path
  have slash : '\x00' ∉ path ++ ['/'] := by simp [plain]
  have library : '\x00' ∉ (path ++ ['/']) ++ libName := by
    rw [List.mem_append]
    exact not_or.mpr ⟨slash, by decide⟩
  have length : ((path ++ ['/']) ++ libName).length = path.length + libName.length + 1 := by
    simp only [List.length_append, List.length_singleton]
    omega
  have short : (path ++ ['/']).length < fuel := by
    rw [List.length_append, List.length_singleton]
    omega
  obtain ⟨second, joined, stored, touched⟩ :=
    strcat_spec stored plain (show path.length < fuel by omega) ['/']
  obtain ⟨third, whole, stored, more⟩ := strcat_spec stored slash short libName
  obtain ⟨last, read, reads⟩ := readText_spec stored library (length ▸ enough)
  refine ⟨last, ?_, fun j => ?_⟩
  · simp only [preload, joined, whole, read, Option.bind_eq_bind, Option.bind_some]
    split <;> rfl
  · have all := ((first.trans touched (by simp)).trans more (by simp)).trans reads le_rfl
    simpa [Memory.untouched] using all j

/-- The end of `main` behind the options. -/
theorem launch_ends {options : List (Char × List Char)} {environment after : Environment}
    {directory : Option (List Char)} {command : List Char} (complete : ¬NeedsUsage options)
    (exported : Exported options environment after) (named : command = lastOf ['c', 'C'] [] options)
    (plainCommand : '\x00' ∉ command) (plain : ∀ path ∈ directory, '\x00' ∉ path)
    (buff : Int → Char) (argv2 : Int → Option Int) (enough : command.length + 2 ≤ fuel)
    (long : ∀ path ∈ directory, path.length + libName.length + 2 ≤ fuel) :
    ∃ ending, (do
        let (command, argv2) ← parse fuel (.untouched (stringAt command)) 0 (.untouched argv2) 0
        match getcwd directory maxPathLength (.untouched buff) with
        | none => return .getcwdError
        | some buff => preload fuel command argv2 buff after : Option MainEnd) = some ending ∧
      MainEnds options environment directory ending := by
  have started : Stores (Memory.untouched (stringAt command)).content 0 (command ++ ['\x00']) :=
    stringAt_stores [] command
  obtain ⟨text, array, pointers, run, parsed⟩ :
      ∃ text array pointers, parse fuel (.untouched (stringAt command)) 0 (.untouched argv2) 0 =
        some (text, array) ∧ _ := parse_spec started plainCommand (by omega)
  have written (j : Int) : j ∈ array.touched ↔ 0 ≤ j ∧ j ≤ ((arguments command).length : Int) := by
    simpa [Memory.untouched] using parsed.written j
  by_cases fits : ∃ path ∈ directory, path.length < maxPathLength
  · obtain ⟨path, found, short⟩ := fits
    obtain ⟨last, ends, touched⟩ :=
      preload_spec text array buff after (plain path found) (show _ < fuel by have := long path found; omega)
    have place : getcwd directory maxPathLength (.untouched buff) =
        some (storeText (.untouched buff) 0 path) := by
      rw [getcwd, Option.mem_def.mp found, Option.bind_some, if_pos short]
    rw [execute_spec written] at ends
    by_cases empty : command = []
    · refine ⟨.unsetArgument, ?_, .unsetArgument complete found short (named ▸ empty)⟩
      rw [if_pos (by simp [empty, arguments, runs])] at ends
      simp [run, place, ends]
    · have some := List.length_pos_iff.mpr (arguments_ne_nil empty)
      rw [if_neg (by omega)] at ends
      refine ⟨.execute ⟨text, ((array.load 0).load 0).load 1, last,
        setenv after "LD_PRELOAD" ((path ++ ['/']) ++ libName)⟩, by simpa [run, place] using ends, ?_⟩
      rw [named] at empty
      refine .execute complete found short empty exported ⟨rfl, ?_, ?_, ?_⟩
      · exact ⟨pointers, parsed.array, named ▸ parsed.strings⟩
      · rw [touched_inside_iff touched]
        simp only [List.length_append, List.length_singleton]
        have size : libName.length = 38 := by decide
        rw [size, maxPathLength]
        omega
      · have all (j : Int) : j ∈ (((array.load 0).load 0).load 1).touched ↔
            0 ≤ j ∧ j ≤ ((arguments command).length : Int) := by
          simp only [Memory.load_touched, List.mem_cons, written]
          omega
        rw [← named, touched_inside_iff all, argv2Size]
        omega
  · have place : getcwd directory maxPathLength (.untouched buff) = none := by
      cases found : directory with
      | none => rfl
      | some path => simpa [getcwd] using fun short => fits ⟨path, found, short⟩
    refine ⟨.getcwdError, by simp [run, place], .getcwdError complete fun path found => ?_⟩
    by_contra short
    exact fits ⟨path, found, by omega⟩

/-- For every command line, environment and working directory the launcher comes to an end that its
options and the directory decide. -/
theorem main_ends {words : List (List Char)} (plainWords : ∀ word ∈ words, '\x00' ∉ word)
    {directory : Option (List Char)} (plain : ∀ path ∈ directory, '\x00' ∉ path)
    (environment : Environment) (buff : Int → Char) (argv2 : Int → Option Int) :
    ∃ options, Gives (.start environment words) options ∧
      ∃ enough, ∀ fuel, enough ≤ fuel →
        ∃ ending, main fuel words environment directory buff argv2 = some ending ∧
          MainEnds (handled options) environment directory ending := by
  obtain ⟨options, given⟩ := exists_gives (.start environment words)
  obtain ⟨rounds, result, results, all⟩ := resilienceMain_results given
  refine ⟨options, given, ?_⟩
  cases results with
  | usage needs =>
      refine ⟨rounds, fun fuel enough => ⟨.usage, ?_, .usage needs⟩⟩
      simp [main, all fuel enough]
  | @launch after complete exported =>
      have plainOptions := given.plain ⟨by simp [Scanner.start], plainWords⟩
      have plainCommand : '\x00' ∉ lastOf ['c', 'C'] [] (handled options) :=
        lastOf_plain (fun option mem => plainOptions option (handled_subset options mem)) (by simp)
      refine ⟨rounds + (lastOf ['c', 'C'] [] (handled options)).length +
        (directory.getD []).length + libName.length + 4, fun fuel enough => ?_⟩
      have room : (lastOf ['c', 'C'] [] (handled options)).length + 2 ≤ fuel := by omega
      have long : ∀ path ∈ directory, path.length + libName.length + 2 ≤ fuel := by
        rintro path rfl
        simp only [Option.getD_some] at enough
        omega
      obtain ⟨ending, ends, spec⟩ :=
        launch_ends complete exported rfl plainCommand plain buff argv2 room long
      refine ⟨ending, ?_, spec⟩
      rw [main, all fuel (by omega)]
      exact ends

/-- The words of a listing. -/
def listingWords : List (List Char) := ["-c".toList, "ls -l".toList, "-g".toList, "libc.so".toList]

/-- The options of the words. -/
def listingOptions : List (Char × List Char) := [('c', "ls -l".toList), ('g', "libc.so".toList)]

theorem listing_gives : Gives (.start (fun _ => none) listingWords) listingOptions :=
  .option rfl (.option rfl (.stop rfl))

/-- A listing is launched with its two arguments and the library under the directory. -/
theorem listing_ends : ∃ fuel launch,
    main fuel listingWords (fun _ => none) (some "/root".toList) (fun _ => '\x00') (fun _ => none) =
      some (.execute launch) ∧
    launch.environment "LD_PRELOAD" = some "/root/BandwidthLimiter/build-32/libc_band.so".toList ∧
    launch.environment "RESILIENCE_GLIBC_PATH" = some "libc.so".toList ∧
    ∃ first second, Stores launch.argv2.content 0 [some first, some second, none] ∧
      Stores launch.command.content first ("ls".toList ++ ['\x00']) ∧
      Stores launch.command.content second ("-l".toList ++ ['\x00']) := by
  have plainWords : ∀ word ∈ listingWords, '\x00' ∉ word := by decide
  have plain : ∀ path ∈ some "/root".toList, '\x00' ∉ path := by decide
  obtain ⟨options, given, enough, ends⟩ :=
    main_ends plainWords plain (fun _ => none) (fun _ => '\x00') (fun _ => none)
  obtain rfl := given.unique listing_gives
  obtain ⟨ending, run, spec⟩ := ends enough le_rfl
  cases spec with
  | usage needs => exact absurd needs (by decide)
  | getcwdError _ long => exact absurd (long _ rfl) (by decide)
  | unsetArgument _ _ _ empty => exact absurd empty (by decide)
  | @execute path after launch _ found _ _ exported launched =>
      obtain rfl := Option.some.inj found
      obtain ⟨environment, ⟨pointers, array, strings⟩, -, -⟩ := launched
      have split : arguments (lastOf ['c', 'C'] [] (handled listingOptions)) =
          ["ls".toList, "-l".toList] := by decide
      rw [split] at strings
      obtain ⟨first, others, one, two, rfl⟩ := List.forall₂_cons_right_iff.mp strings
      obtain ⟨second, rest, other, behind, rfl⟩ := List.forall₂_cons_right_iff.mp two
      obtain rfl := List.forall₂_nil_right_iff.mp behind
      refine ⟨enough, launch, run, ?_, ?_, first, second, array, one, other⟩
      · rw [environment]
        rfl
      · rw [environment]
        exact exported.path

end Launches

end BandwidthLimiter
