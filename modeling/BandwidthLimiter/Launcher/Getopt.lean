import Mathlib.Algebra.BigOperators.Group.List.Basic
import Mathlib.Algebra.Order.Ring.Nat
import Mathlib.Data.List.TakeWhile
import BandwidthLimiter.Launcher.Resilience

namespace BandwidthLimiter
open Foundation

/-- The options with an argument, apart from `-g`. -/
inductive Setting where
  | up
  | down
  | latency
  | ip
  | sysIp
  | port
  | ipcPort
  | command
  deriving DecidableEq, Repr

/-- The letters that write the variable of a setting: `-I` writes the port too. -/
def Setting.letters : Setting → List Char
  | up => ['u', 'U']
  | down => ['d', 'D']
  | latency => ['l', 'L']
  | ip => ['i']
  | sysIp => ['I']
  | port => ['p', 'I']
  | ipcPort => ['P']
  | command => ['c', 'C']

/-- The environment variable of a setting; the command has none. -/
def Setting.variable : Setting → Option String
  | up => some "RESILIENCE_UP_LIMITS"
  | down => some "RESILIENCE_DOWN_LIMITS"
  | latency => some "RESILIENCE_LATENCY"
  | ip => some "RESILIENCE_IPS"
  | sysIp => some "RESILIENCE_SYS_IP"
  | port => some "RESILIENCE_PORTS"
  | ipcPort => some "RESILIENCE_IPC_PORT"
  | command => none

/-- The variable of `main` for a setting. -/
def Launcher.value (launcher : Launcher) : Setting → List Char
  | .up => launcher.upLimit
  | .down => launcher.downLimit
  | .latency => launcher.latency
  | .ip => launcher.ipAddr
  | .sysIp => launcher.sysIp
  | .port => launcher.port
  | .ipcPort => launcher.ipcPort
  | .command => launcher.command

/-- The options that `getopt` gives one after the other, up to its result −1. -/
inductive Gives : Scanner → List (Char × List Char) → Prop where
  | stop {scanner next : Scanner} (found : getopt scanner = (none, next)) : Gives scanner []
  | option {scanner next : Scanner} {opt : Char} {optarg : List Char}
      {options : List (Char × List Char)} (found : getopt scanner = (some (opt, optarg), next))
      (rest : Gives next options) : Gives scanner ((opt, optarg) :: options)

/-- The options that the loop handles; the last of them is the first `-g`. -/
def handled : List (Char × List Char) → List (Char × List Char)
  | [] => []
  | (opt, optarg) :: rest =>
      if opt ∈ ['g', 'G'] then [(opt, optarg)] else (opt, optarg) :: handled rest

/-- One of the letters is among the options. -/
def Given (letters : List Char) (options : List (Char × List Char)) : Prop :=
  ∃ option ∈ options, option.1 ∈ letters

instance (letters : List Char) (options : List (Char × List Char)) :
    Decidable (Given letters options) :=
  inferInstanceAs (Decidable (∃ option ∈ options, option.1 ∈ letters))

/-- The argument of the last option with one of the letters, or the default. -/
def lastOf (letters default : List Char) (options : List (Char × List Char)) : List Char :=
  ((options.filter fun option => option.1 ∈ letters).getLast?.map Prod.snd).getD default

/-- The options ask for the usage text, or a mandatory one is missing: the command, and without a
configuration file the library. -/
def NeedsUsage (options : List (Char × List Char)) : Prop :=
  Given ['h', 'H'] options ∨ ¬Given ['c', 'C'] options ∨
    ¬Given ['f', 'F'] options ∧ ¬Given ['g', 'G'] options

instance (options : List (Char × List Char)) : Decidable (NeedsUsage options) :=
  inferInstanceAs (Decidable (_ ∨ _))

/-- The environment that the options ask for: the flag and the path of the library, and without a
configuration file the last argument of each setting. -/
structure Exported (options : List (Char × List Char)) (environment after : Environment) : Prop where
  flag : after "RESILIENCE_CONFIGFLAG" =
    some (if Given ['f', 'F'] options then "1".toList else "-1".toList)
  path : after "RESILIENCE_GLIBC_PATH" = some (lastOf ['g', 'G'] [] options)
  settings : ∀ setting name, setting.variable = some name → after name =
    if Given ['f', 'F'] options then environment name
    else some (lastOf setting.letters (Launcher.initial.value setting) options)
  others : ∀ name, name ≠ "RESILIENCE_CONFIGFLAG" → name ≠ "RESILIENCE_GLIBC_PATH" →
    (∀ setting : Setting, setting.variable ≠ some name) → after name = environment name

section Scanner

/-- The characters that `getopt` has still to read. -/
def Scanner.size (scanner : Scanner) : Nat :=
  scanner.cluster.length + (scanner.words.map fun word => word.length + 1).sum

/-- C strings have no NUL byte inside. -/
structure Scanner.Plain (scanner : Scanner) : Prop where
  cluster : '\x00' ∉ scanner.cluster
  words : ∀ word ∈ scanner.words, '\x00' ∉ word

variable {scanner next : Scanner} {opt : Char} {optarg : List Char}

theorem nextWord_some {words rest : List (List Char)} {cluster : List Char} {posixly : Bool}
    (found : nextWord posixly words = some (cluster, rest)) :
    Scanner.size ⟨cluster, rest, posixly⟩ < Scanner.size ⟨[], words, posixly⟩ ∧
      (Scanner.Plain ⟨[], words, posixly⟩ → Scanner.Plain ⟨cluster, rest, posixly⟩) := by
  induction words with
  | nil => cases found
  | cons word others ih =>
      unfold nextWord at found
      split at found
      · rename_i c more
        split at found
        · cases found
        · obtain ⟨rfl, rfl⟩ := Prod.mk.inj (Option.some.inj found)
          refine ⟨by simp [Scanner.size], fun plain => ⟨fun mem => ?_, fun word mem => ?_⟩⟩
          · exact plain.words ('-' :: c :: more) List.mem_cons_self (List.mem_cons_of_mem _ mem)
          · exact plain.words word (List.mem_cons_of_mem _ mem)
      · split at found
        · cases found
        · obtain ⟨less, kept⟩ := ih found
          refine ⟨less.trans (by simp [Scanner.size]), fun plain => kept ⟨plain.cluster, ?_⟩⟩
          exact fun word mem => plain.words word (List.mem_cons_of_mem _ mem)

/-- The word that `getopt` reads on. -/
theorem current_some {c : Char} {more : List Char} {words : List (List Char)}
    (found : (if scanner.cluster = [] then nextWord scanner.posixly scanner.words
      else some (scanner.cluster, scanner.words)) = some (c :: more, words)) :
    Scanner.size ⟨c :: more, words, scanner.posixly⟩ ≤ scanner.size ∧
      (scanner.Plain → Scanner.Plain ⟨c :: more, words, scanner.posixly⟩) := by
  split at found
  · rename_i empty
    obtain ⟨less, kept⟩ := nextWord_some found
    have whole : Scanner.mk [] scanner.words scanner.posixly = scanner := by rw [← empty]
    rw [whole] at less kept
    exact ⟨less.le, kept⟩
  · obtain ⟨same, rfl⟩ := Prod.mk.inj (Option.some.inj found)
    rw [← same]
    exact ⟨le_rfl, id⟩

/-- What one call of `getopt` does with the option `c` at the front of the word that it reads on. -/
theorem getopt_cases (found : getopt scanner = (some (opt, optarg), next)) :
    ∃ c more words, (if scanner.cluster = [] then nextWord scanner.posixly scanner.words
        else some (scanner.cluster, scanner.words)) = some (c :: more, words) ∧
      (opt = '?' ∨ takesArgument optstring c ≠ none ∧ opt = c) ∧
      (optarg = [] ∧ next = ⟨more, words, scanner.posixly⟩ ∨
        optarg = [] ∧ next = ⟨[], [], scanner.posixly⟩ ∨
        optarg = more ∧ next = ⟨[], words, scanner.posixly⟩ ∨
        ∃ rest, words = optarg :: rest ∧ next = ⟨[], rest, scanner.posixly⟩) := by
  unfold getopt at found
  dsimp only at found
  split at found
  · cases found
  · cases found
  · rename_i c more words current
    refine ⟨c, more, words, current, ?_⟩
    split at found
    · obtain ⟨same, rfl⟩ := Prod.mk.inj found
      obtain ⟨rfl, rfl⟩ := Prod.mk.inj (Option.some.inj same)
      exact ⟨.inl rfl, .inl ⟨rfl, rfl⟩⟩
    · rename_i takes
      obtain ⟨same, rfl⟩ := Prod.mk.inj found
      obtain ⟨rfl, rfl⟩ := Prod.mk.inj (Option.some.inj same)
      exact ⟨.inr ⟨by simp [takes], rfl⟩, .inl ⟨rfl, rfl⟩⟩
    · rename_i takes
      split at found
      · obtain ⟨same, rfl⟩ := Prod.mk.inj found
        obtain ⟨rfl, rfl⟩ := Prod.mk.inj (Option.some.inj same)
        exact ⟨.inr ⟨by simp [takes], rfl⟩, .inr (.inr (.inl ⟨rfl, rfl⟩))⟩
      · split at found
        · obtain ⟨same, rfl⟩ := Prod.mk.inj found
          obtain ⟨rfl, rfl⟩ := Prod.mk.inj (Option.some.inj same)
          exact ⟨.inl rfl, .inr (.inl ⟨rfl, rfl⟩)⟩
        · rename_i argument rest
          obtain ⟨same, rfl⟩ := Prod.mk.inj found
          obtain ⟨rfl, rfl⟩ := Prod.mk.inj (Option.some.inj same)
          exact ⟨.inr ⟨by simp [takes], rfl⟩, .inr (.inr (.inr ⟨rest, rfl, rfl⟩))⟩

/-- An option leaves less to read, and its argument is a part of the words. -/
theorem getopt_some (found : getopt scanner = (some (opt, optarg), next)) :
    next.size < scanner.size ∧ (scanner.Plain → next.Plain ∧ '\x00' ∉ optarg) := by
  obtain ⟨c, more, words, current, -, rest⟩ := getopt_cases found
  obtain ⟨less, kept⟩ := current_some current
  let left (words : List (List Char)) : Nat := (words.map fun word => word.length + 1).sum
  have less : more.length + 1 + left words ≤ scanner.size := less
  have front (plain : scanner.Plain) : '\x00' ∉ more ∧ ∀ word ∈ words, '\x00' ∉ word :=
    ⟨fun mem => (kept plain).cluster (List.mem_cons_of_mem c mem), (kept plain).words⟩
  rcases rest with ⟨rfl, rfl⟩ | ⟨rfl, rfl⟩ | ⟨rfl, rfl⟩ | ⟨rest, rfl, rfl⟩
  · refine ⟨?_, fun plain => ⟨⟨(front plain).1, (front plain).2⟩, by simp⟩⟩
    change more.length + left words < _
    omega
  · refine ⟨?_, fun _ => ⟨⟨by simp, by simp⟩, by simp⟩⟩
    change 0 < _
    omega
  · refine ⟨?_, fun plain => ⟨⟨by simp, (front plain).2⟩, (front plain).1⟩⟩
    change 0 + left words < _
    omega
  · refine ⟨?_, fun plain => ⟨⟨by simp, fun word mem => ?_⟩, ?_⟩⟩
    · have cons : left (optarg :: rest) = optarg.length + 1 + left rest := List.sum_cons
      change 0 + left rest < _
      omega
    · exact (front plain).2 word (List.mem_cons_of_mem _ mem)
    · exact (front plain).2 _ List.mem_cons_self

/-- Every scanner gives its options after finitely many calls. -/
theorem exists_gives (scanner : Scanner) : ∃ options, Gives scanner options := by
  induction size : scanner.size using Nat.strong_induction_on generalizing scanner with
  | h size ih =>
      subst size
      cases found : getopt scanner with
      | mk result next =>
          cases result with
          | none => exact ⟨[], .stop found⟩
          | some option =>
              obtain ⟨options, rest⟩ := ih next.size (getopt_some found).1 next rfl
              exact ⟨option :: options, .option found rest⟩

/-- A scanner gives its options only. -/
theorem Gives.unique {options others : List (Char × List Char)} (given : Gives scanner options)
    (again : Gives scanner others) : options = others := by
  induction given generalizing others with
  | stop found =>
      cases again with
      | stop => rfl
      | option other => cases found.symm.trans other
  | option found rest ih =>
      cases again with
      | stop other => cases found.symm.trans other
      | option other behind =>
          obtain ⟨same, rfl⟩ := Prod.mk.inj (found.symm.trans other)
          rw [Option.some.inj same, ih behind]

/-- The arguments of the options are C strings. -/
theorem Gives.plain {options : List (Char × List Char)} (given : Gives scanner options)
    (plain : scanner.Plain) : ∀ option ∈ options, '\x00' ∉ option.2 := by
  induction given with
  | stop => simp
  | option found rest ih =>
      obtain ⟨kept, argument⟩ := (getopt_some found).2 plain
      rintro option mem
      rcases List.mem_cons.mp mem with rfl | mem
      · exact argument
      · exact ih kept option mem

/-- An option has a letter of the option string, or the one for a wrong option. -/
theorem getopt_letter (found : getopt scanner = (some (opt, optarg), next)) :
    opt = '?' ∨ opt ∈ optstring ∧ opt ≠ ':' := by
  obtain ⟨c, more, words, -, letter, -⟩ := getopt_cases found
  rcases letter with wrong | ⟨takes, rfl⟩
  · exact .inl wrong
  · refine .inr ⟨?_, fun colon => takes (by simp [takesArgument, colon])⟩
    by_contra absent
    have none : optstring.dropWhile (· ≠ opt) = [] := by
      rw [List.dropWhile_eq_nil_iff]
      intro d mem
      simpa using fun same : d = opt => absent (same ▸ mem)
    apply takes
    unfold takesArgument
    rw [none]
    split <;> rfl

end Scanner

section Options

variable {scanner : Scanner} {options : List (Char × List Char)} {launcher later : Launcher}
  {opt : Char} {optarg letters default : List Char}

theorem given_cons : Given letters ((opt, optarg) :: options) ↔ opt ∈ letters ∨ Given letters options := by
  simp [Given]

theorem lastOf_cons : lastOf letters default ((opt, optarg) :: options) =
    lastOf letters (if opt ∈ letters then optarg else default) options := by
  by_cases chosen : opt ∈ letters
  · rw [lastOf, List.filter_cons_of_pos (by simpa using chosen), List.getLast?_cons, if_pos chosen, lastOf]
    cases (options.filter fun option => option.1 ∈ letters).getLast? <;> rfl
  · rw [lastOf, List.filter_cons_of_neg (by simpa using chosen), if_neg chosen, lastOf]

/-- Without an option, the default remains. -/
theorem lastOf_none (none : ¬Given letters options) : lastOf letters default options = default := by
  have empty : options.filter (fun option => option.1 ∈ letters) = [] := by
    rw [List.filter_eq_nil_iff]
    exact fun option mem chosen => none ⟨option, mem, by simpa using chosen⟩
  rw [lastOf, empty]
  rfl

/-- The arguments of C strings have no NUL byte. -/
theorem lastOf_plain (plain : ∀ option ∈ options, '\x00' ∉ option.2) (front : '\x00' ∉ default) :
    '\x00' ∉ lastOf letters default options := by
  induction options generalizing default with
  | nil => exact front
  | cons option rest ih =>
      rw [lastOf_cons]
      apply ih fun other mem => plain other (List.mem_cons_of_mem _ mem)
      split
      · exact plain option List.mem_cons_self
      · exact front

theorem handled_subset (options : List (Char × List Char)) : handled options ⊆ options := by
  induction options with
  | nil => exact List.Subset.refl []
  | cons option rest ih =>
      rw [handled]
      split
      · exact List.cons_subset_cons option (List.nil_subset rest)
      · exact List.cons_subset_cons option ih

/-- The `switch` of the loop for each option in turn. -/
def Launcher.switches (launcher : Launcher) (options : List (Char × List Char)) : Option Launcher :=
  options.foldlM (fun launcher option => launcher.switch option.1 option.2) launcher

theorem Launcher.switches_cons : launcher.switches ((opt, optarg) :: options) =
    (launcher.switch opt optarg).bind fun later => later.switches options := rfl

/-- The `switch` exits for the letters of the help alone. -/
theorem Launcher.switch_none_iff (letter : opt = '?' ∨ opt ∈ optstring ∧ opt ≠ ':') :
    launcher.switch opt optarg = none ↔ opt ∈ ['h', 'H'] := by
  constructor
  · intro exits
    rcases letter with rfl | ⟨mem, colon⟩
    · cases exits
    · have others : optstring.all (fun c => c = ':' || decide (c ∈ ['h', 'H']) ||
          (launcher.switch c optarg).isSome) = true := rfl
      have goes := List.all_eq_true.mp others opt mem
      rw [exits] at goes
      simpa [colon] using goes
  · intro help
    simp only [List.mem_cons, List.not_mem_nil, or_false] at help
    rcases help with rfl | rfl <;> rfl

/-- The variables of an option that `switch` writes. -/
theorem Launcher.switch_some (chosen : launcher.switch opt optarg = some later) :
    later.flagConfig = (launcher.flagConfig || opt ∈ ['f', 'F']) ∧
    later.ifGlib = (launcher.ifGlib || opt ∈ ['g', 'G']) ∧
    later.cmdFlag = (launcher.cmdFlag || opt ∈ ['c', 'C']) ∧
    later.glibc = (if opt ∈ ['g', 'G'] then optarg else launcher.glibc) := by
  unfold Launcher.switch at chosen
  split at chosen <;> cases chosen <;> simp

theorem Launcher.switch_value (chosen : launcher.switch opt optarg = some later) (setting : Setting) :
    later.value setting = if opt ∈ setting.letters then optarg else launcher.value setting := by
  unfold Launcher.switch at chosen
  split at chosen <;> cases chosen <;> cases setting <;> simp [Launcher.value, Setting.letters]

/-- The variables after all options. -/
theorem Launcher.switches_some (chosen : launcher.switches options = some later) :
    later.flagConfig = (launcher.flagConfig || Given ['f', 'F'] options) ∧
    later.ifGlib = (launcher.ifGlib || Given ['g', 'G'] options) ∧
    later.cmdFlag = (launcher.cmdFlag || Given ['c', 'C'] options) ∧
    later.glibc = lastOf ['g', 'G'] launcher.glibc options ∧
    ∀ setting : Setting, later.value setting = lastOf setting.letters (launcher.value setting) options := by
  induction options generalizing launcher with
  | nil =>
      obtain rfl := Option.some.inj chosen
      simp [Given, lastOf]
  | cons option rest ih =>
      obtain ⟨opt, optarg⟩ := option
      rw [Launcher.switches, List.foldlM_cons] at chosen
      obtain ⟨middle, first, chosen⟩ := Option.bind_eq_some_iff.mp chosen
      obtain ⟨config, glib, command, path, values⟩ := ih chosen
      obtain ⟨firstConfig, firstGlib, firstCommand, firstPath⟩ := Launcher.switch_some first
      refine ⟨?_, ?_, ?_, ?_, fun setting => ?_⟩
      · rw [config, firstConfig, Bool.or_assoc]
        simp only [given_cons, Bool.decide_or]
      · rw [glib, firstGlib, Bool.or_assoc]
        simp only [given_cons, Bool.decide_or]
      · rw [command, firstCommand, Bool.or_assoc]
        simp only [given_cons, Bool.decide_or]
      · rw [path, firstPath, lastOf_cons]
      · rw [values, Launcher.switch_value first, lastOf_cons]

/-- The `switch` exits in the loop exactly when the help is asked for. -/
theorem Gives.switches_none_iff (given : Gives scanner options) (launcher : Launcher) :
    launcher.switches (handled options) = none ↔ Given ['h', 'H'] (handled options) := by
  induction given generalizing launcher with
  | stop => simp [handled, Launcher.switches, Given]
  | @option scanner next opt optarg options found rest ih =>
      have first : launcher.switch opt optarg = none ↔ opt ∈ ['h', 'H'] :=
        Launcher.switch_none_iff (getopt_letter found)
      have cons {others : List (Char × List Char)}
          (behind : ∀ later : Launcher, later.switches others = none ↔ Given ['h', 'H'] others) :
          launcher.switches ((opt, optarg) :: others) = none ↔ Given ['h', 'H'] ((opt, optarg) :: others) := by
        rw [Launcher.switches_cons, given_cons, ← first]
        cases launcher.switch opt optarg with
        | none => simp
        | some later => simpa using behind later
      rw [handled]
      split
      · exact cons fun later => by simp [Launcher.switches, Given]
      · exact cons ih

/-- The loop handles its options one after the other. -/
theorem optionLoop_handled (given : Gives scanner options) (waits : launcher.ifGlib = false) :
    ∃ fuel, whileLoop optionBody fuel (scanner, launcher) = some (launcher.switches (handled options)) := by
  induction given generalizing launcher with
  | stop found =>
      refine ⟨1, whileLoop_stop ?_⟩
      rw [optionBody, found]
      rfl
  | @option scanner next opt optarg options found rest ih =>
      cases chosen : launcher.switch opt optarg with
      | none =>
          refine ⟨1, whileLoop_stop ?_⟩
          have exits (others : List (Char × List Char)) :
              launcher.switches ((opt, optarg) :: others) = none := by
            rw [Launcher.switches_cons, chosen]
            rfl
          have none : launcher.switches (handled ((opt, optarg) :: options)) = none := by
            rw [handled]
            split <;> exact exits _
          rw [none, optionBody, found]
          simp [waits, chosen]
      | some later =>
          have round : optionBody (scanner, launcher) = .inl (next, later) := by
            rw [optionBody, found]
            simp [waits, chosen]
          have glib : later.ifGlib = decide (opt ∈ ['g', 'G']) := by
            rw [(Launcher.switch_some chosen).2.1, waits, Bool.false_or]
          rw [handled]
          split
          · rename_i last
            -- The next option is read, but not handled.
            have stop : optionBody (next, later) = .inr (some later) := by
              rw [optionBody]
              split <;> simp [glib, last]
            refine ⟨2, ?_⟩
            rw [whileLoop_next round, whileLoop_stop stop, Launcher.switches_cons, chosen]
            rfl
          · rename_i more
            obtain ⟨fuel, loop⟩ := ih (glib.trans (decide_eq_false more))
            refine ⟨fuel + 1, ?_⟩
            rw [whileLoop_next round, loop, Launcher.switches_cons, chosen]
            rfl

theorem Launcher.exports_none_iff {environment : Environment} : launcher.exports environment = none ↔
    launcher.cmdFlag = false ∨ launcher.flagConfig = false ∧ launcher.ifGlib = false := by
  rw [Launcher.exports]
  cases launcher.flagConfig <;> cases launcher.cmdFlag <;> cases launcher.ifGlib <;> simp

/-- The environment of the options without a call of `usage`. -/
theorem exports_exported {environment after : Environment}
    (chosen : Launcher.initial.switches options = some launcher)
    (exports : launcher.exports environment = some after) : Exported options environment after := by
  obtain ⟨config, -, -, path, values⟩ := Launcher.switches_some chosen
  have config : launcher.flagConfig = Given ['f', 'F'] options := by
    rw [config]
    simp [Launcher.initial]
  have path : launcher.glibc = lastOf ['g', 'G'] [] options := path
  rw [Launcher.exports] at exports
  by_cases file : Given ['f', 'F'] options
  · rw [if_pos (by simp [config, file])] at exports
    split at exports
    · cases exports
    · obtain rfl := Option.some.inj exports
      refine ⟨?_, ?_, fun setting name named => ?_, fun name flag library others => ?_⟩
      · rw [if_pos file]
        rfl
      · rw [← path]
        rfl
      · rw [if_pos file]
        cases setting <;> cases named <;> rfl
      · simp [setenv, flag, library]
  · rw [if_neg (by simp [config, file])] at exports
    split at exports
    · cases exports
    · obtain rfl := Option.some.inj exports
      refine ⟨?_, ?_, fun setting name named => ?_, fun name flag library others => ?_⟩
      · rw [if_neg file]
        rfl
      · rw [← path]
        rfl
      · rw [if_neg file, ← values setting]
        cases setting <;> cases named <;> rfl
      · have up := others .up
        have down := others .down
        have latency := others .latency
        have ip := others .ip
        have sysIp := others .sysIp
        have port := others .port
        have ipcPort := others .ipcPort
        simp only [Setting.variable, ne_eq, Option.some.injEq] at up down latency ip sysIp port ipcPort
        simp [setenv, flag, library, Ne.symm up, Ne.symm down, Ne.symm latency, Ne.symm ip,
          Ne.symm sysIp, Ne.symm port, Ne.symm ipcPort]

/-- The result of the options: the usage text, or the command and its environment. -/
inductive Results (options : List (Char × List Char)) (environment : Environment) :
    Option (List Char × Environment) → Prop where
  | usage (needs : NeedsUsage options) : Results options environment none
  | launch {after : Environment} (complete : ¬NeedsUsage options)
      (exported : Exported options environment after) :
      Results options environment (some (lastOf ['c', 'C'] [] options, after))

/-- The launcher exits with the usage text exactly when the options need it, and it exports what the
options ask for. -/
theorem resilienceMain_results {words : List (List Char)} {environment : Environment}
    (given : Gives (.start environment words) options) :
    ∃ enough result, Results (handled options) environment result ∧
      ∀ fuel, enough ≤ fuel → resilienceMain fuel words environment = some result := by
  obtain ⟨enough, loop⟩ := optionLoop_handled given (show Launcher.initial.ifGlib = false from rfl)
  refine ⟨enough, _, ?_, fun fuel more => by rw [resilienceMain, whileLoop_mono loop more]; rfl⟩
  cases chosen : Launcher.initial.switches (handled options) with
  | none => exact .usage (.inl ((given.switches_none_iff _).mp chosen))
  | some launcher =>
      have help : ¬Given ['h', 'H'] (handled options) := by
        rw [← given.switches_none_iff Launcher.initial, chosen]
        simp
      obtain ⟨config, glib, command, -, values⟩ := Launcher.switches_some chosen
      have needs : NeedsUsage (handled options) ↔ launcher.exports environment = none := by
        rw [NeedsUsage, Launcher.exports_none_iff, config, glib, command]
        simp [help, Launcher.initial]
      cases exports : launcher.exports environment with
      | none => simpa [exports] using Results.usage (needs.mpr exports)
      | some after =>
          have complete : ¬NeedsUsage (handled options) := by simp [needs, exports]
          have named : launcher.command = lastOf ['c', 'C'] [] (handled options) := values .command
          simpa [exports, named] using Results.launch complete (exports_exported chosen exports)

/-- Words that do not need the usage text are accepted. -/
theorem exists_accepted {words : List (List Char)} {environment : Environment}
    (given : Gives (.start environment words) options) (complete : ¬NeedsUsage (handled options)) :
    ∃ fuel command after, resilienceMain fuel words environment = some (some (command, after)) := by
  obtain ⟨enough, result, results, all⟩ := resilienceMain_results given
  cases results with
  | usage needs => exact absurd needs complete
  | launch => exact ⟨enough, _, _, all enough le_rfl⟩

/-- The launcher exports the environment of the options that it accepts. -/
theorem accepted_exported {words : List (List Char)} {environment after : Environment}
    {command : List Char} {fuel : Nat} (given : Gives (.start environment words) options)
    (accepted : resilienceMain fuel words environment = some (some (command, after))) :
    Exported (handled options) environment after := by
  obtain ⟨enough, result, results, all⟩ := resilienceMain_results given
  have mono : resilienceMain (fuel + enough) words environment = some (some (command, after)) := by
    obtain ⟨launcher, loop, same⟩ := Option.map_eq_some_iff.mp accepted
    rw [resilienceMain, whileLoop_mono loop (Nat.le_add_right fuel enough), Option.map_some, same]
  obtain rfl := Option.some.inj ((all _ (Nat.le_add_left enough fuel)).symm.trans mono)
  cases results with
  | launch _ exported => exact exported

end Options

end BandwidthLimiter
