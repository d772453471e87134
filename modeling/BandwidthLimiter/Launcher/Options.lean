import Mathlib.Data.List.Basic
import Mathlib.Data.List.Induction
import BandwidthLimiter.Launcher.Getopt

namespace BandwidthLimiter
open Foundation

def Setting.letter : Setting → Char
  | up => 'u'
  | down => 'd'
  | latency => 'l'
  | ip => 'i'
  | sysIp => 'I'
  | port => 'p'
  | ipcPort => 'P'
  | command => 'c'

/-- The words of an option; its argument is attached to it or the next word. -/
def optionWords (letter : Char) (argument : List Char) (attached : Bool) : List (List Char) :=
  if attached ∧ argument ≠ [] then ['-' :: letter :: argument] else [['-', letter], argument]

/-- An option of a command line with its argument. -/
structure OptionUse where
  setting : Setting
  argument : List Char
  attached : Bool

def OptionUse.words (use : OptionUse) : List (List Char) :=
  optionWords use.setting.letter use.argument use.attached

/-- A command line: the options, one final `-g`, and operands. -/
def commandLine (uses : List OptionUse) (glibc : List Char) (attached : Bool)
    (operands : List (List Char)) : List (List Char) :=
  uses.flatMap OptionUse.words ++ (optionWords 'g' glibc attached ++ operands)

/-- The argument of the last use of some settings, or the default. -/
def lastArgument (settings : Setting → Bool) (default : List Char) (uses : List OptionUse) :
    List Char :=
  ((uses.filter fun use => settings use.setting).getLast?.map OptionUse.argument).getD default

/-- The program accepts the words and exports this environment. -/
def Accepts (words : List (List Char)) (environment after : Environment) : Prop :=
  ∃ fuel command, resilienceMain fuel words environment = some (some (command, after))

/-- Every variable has the last argument of its own option, or the default. -/
def OwnExports (uses : List OptionUse) (glibc : List Char) (after : Environment) : Prop :=
  (∀ setting name, setting.variable = some name →
    after name = some (lastArgument (· = setting) (Launcher.initial.value setting) uses)) ∧
  after "RESILIENCE_GLIBC_PATH" = some glibc

/-- The last system address, when no port follows it, has the argument of the last port. -/
def PortKept (uses : List OptionUse) : Prop :=
  ∀ first use rest, uses = first ++ use :: rest → use.setting = .sysIp →
    (∀ later ∈ rest, later.setting ≠ .sysIp ∧ later.setting ≠ .port) →
    use.argument = lastArgument (· = .port) (Launcher.initial.value .port) first

/-- A port and a system address side by side have one argument, when no other of them follows. -/
def ExchangeKept (x y : OptionUse) (rest : List OptionUse) : Prop :=
  (x.setting = .sysIp ∧ y.setting = .port ∨ x.setting = .port ∧ y.setting = .sysIp) →
    (∀ later ∈ rest, later.setting ≠ .sysIp ∧ later.setting ≠ .port) → x.argument = y.argument

section Last

variable {settings : Setting → Bool} {default other : List Char} {first second uses : List OptionUse}

theorem lastArgument_append : lastArgument settings default (first ++ second) =
    lastArgument settings (lastArgument settings default first) second := by
  rw [lastArgument, lastArgument, lastArgument, List.filter_append, List.getLast?_append]
  cases (second.filter fun use => settings use.setting).getLast? <;> rfl

@[simp] theorem lastArgument_nil : lastArgument settings default [] = default := rfl

theorem lastArgument_singleton (use : OptionUse) : lastArgument settings default [use] =
    if settings use.setting then use.argument else default := by
  by_cases chosen : settings use.setting <;> simp [lastArgument, chosen]

/-- Without a use, the default remains. -/
theorem lastArgument_none (none : ∀ use ∈ uses, settings use.setting = false) :
    lastArgument settings default uses = default := by
  have empty : uses.filter (fun use => settings use.setting) = [] := by
    rw [List.filter_eq_nil_iff]
    exact fun use mem => by simp [none use mem]
  rw [lastArgument, empty]
  rfl

/-- With a use, the default does not matter. -/
theorem lastArgument_some {use : OptionUse} (mem : use ∈ uses) (chosen : settings use.setting = true) :
    lastArgument settings default uses = lastArgument settings other uses := by
  have full : uses.filter (fun use => settings use.setting) ≠ [] :=
    List.ne_nil_of_mem (List.mem_filter.mpr ⟨mem, chosen⟩)
  rw [lastArgument, lastArgument, List.getLast?_eq_some_getLast full]
  rfl

/-- The settings that write the port. -/
def writesPort (setting : Setting) : Bool := setting = .sysIp || setting = .port

theorem portKept_concat (init : List OptionUse) (use : OptionUse) : PortKept (init ++ [use]) ↔
    (use.setting = .sysIp →
      use.argument = lastArgument (· = .port) (Launcher.initial.value .port) init) ∧
    (writesPort use.setting = false → PortKept init) := by
  constructor
  · intro kept
    refine ⟨fun named => kept init use [] rfl named nofun, ?_⟩
    intro other first earlier rest split named last
    apply kept first earlier (rest ++ [use]) (by simp [split]) named
    intro later mem
    rcases List.mem_append.mp mem with mem | mem
    · exact last later mem
    · rw [List.mem_singleton.mp mem]
      simpa [writesPort] using other
  · rintro ⟨here, before⟩ first earlier rest split named last
    obtain rfl | ⟨front, final, rfl⟩ := List.eq_nil_or_concat' rest
    · obtain ⟨rfl, same⟩ := List.append_inj' split rfl
      obtain rfl := List.singleton_inj.mp same
      exact here named
    · have whole : init ++ [use] = (first ++ earlier :: front) ++ [final] := by simp [split]
      obtain ⟨rfl, same⟩ := List.append_inj' whole rfl
      obtain rfl := List.singleton_inj.mp same
      have other := last use (by simp)
      apply before (by simpa [writesPort] using other) first earlier front rfl named
      exact fun later mem => last later (by simp [mem])

/-- The last write to the port is the last port, exactly under the condition. -/
theorem portKept_iff (uses : List OptionUse) :
    lastArgument writesPort (Launcher.initial.value .port) uses =
      lastArgument (· = .port) (Launcher.initial.value .port) uses ↔ PortKept uses := by
  induction uses using List.reverseRecOn with
  | nil =>
      refine ⟨fun _ first use rest split => ?_, fun _ => rfl⟩
      simp at split
  | append_singleton init use ih =>
      rw [lastArgument_append, lastArgument_append, lastArgument_singleton, lastArgument_singleton,
        portKept_concat, ← ih]
      cases named : use.setting <;> simp [writesPort]

end Last

section Loop

variable {launcher : Launcher} {use : OptionUse} {uses : List OptionUse} {glibc argument : List Char}
  {attached posixly : Bool} {operands rest : List (List Char)} {environment after : Environment} {letter : Char}

/-- The next option is the one at the front, in either form. -/
theorem getopt_words (takes : takesArgument optstring letter = some true) (plain : letter ≠ '-') :
    getopt ⟨[], optionWords letter argument attached ++ rest, posixly⟩ =
      (some (letter, argument), ⟨[], rest, posixly⟩) := by
  by_cases together : attached ∧ argument ≠ []
  · have full := together.2
    simp [getopt, optionWords, together, nextWord, plain, takes]
  · simp [getopt, optionWords, together, nextWord, plain, takes]

/-- The variables after an option. -/
def Launcher.take (launcher : Launcher) (use : OptionUse) : Launcher :=
  (launcher.switch use.setting.letter use.argument).getD launcher

theorem switch_letter (launcher : Launcher) (use : OptionUse) :
    launcher.switch use.setting.letter use.argument = some (launcher.take use) := by
  obtain ⟨setting, argument, attached⟩ := use
  cases setting <;> rfl

/-- The options that write the variable of a setting. -/
def writers (setting : Setting) : Setting → Bool :=
  if setting = .port then writesPort else (· = setting)

theorem Launcher.value_take (launcher : Launcher) (use : OptionUse) (setting : Setting) :
    (launcher.take use).value setting =
      if writers setting use.setting then use.argument else launcher.value setting := by
  obtain ⟨named, argument, attached⟩ := use
  cases setting <;> cases named <;> rfl

theorem Launcher.take_flags (launcher : Launcher) (use : OptionUse) :
    (launcher.take use).flagConfig = launcher.flagConfig ∧
    (launcher.take use).ifGlib = launcher.ifGlib ∧
    (launcher.take use).cmdFlag = (launcher.cmdFlag || use.setting = .command) := by
  obtain ⟨named, argument, attached⟩ := use
  cases named <;> simp [Launcher.take, Launcher.switch, Setting.letter]

/-- The variables after all options. -/
def settingsOf (uses : List OptionUse) : Launcher := uses.foldl Launcher.take .initial

theorem settingsOf_value (uses : List OptionUse) (setting : Setting) :
    (settingsOf uses).value setting =
      lastArgument (writers setting) (Launcher.initial.value setting) uses := by
  induction uses using List.reverseRecOn with
  | nil => rfl
  | append_singleton init use ih =>
      rw [settingsOf, List.foldl_concat, Launcher.value_take, lastArgument_append,
        lastArgument_singleton, ← ih]
      rfl

theorem settingsOf_flags (uses : List OptionUse) :
    (settingsOf uses).flagConfig = false ∧ (settingsOf uses).ifGlib = false ∧
      (settingsOf uses).cmdFlag = uses.any fun use => use.setting = .command := by
  induction uses using List.reverseRecOn with
  | nil => exact ⟨rfl, rfl, rfl⟩
  | append_singleton init use ih =>
      obtain ⟨config, glib, command⟩ := (settingsOf init).take_flags use
      rw [settingsOf, List.foldl_concat, List.any_append]
      exact ⟨config.trans ih.1, glib.trans ih.2.1, command.trans (by rw [ih.2.2]; simp)⟩

/-- The loop takes one option after the other. -/
theorem optionLoop_uses (uses : List OptionUse) (waits : launcher.ifGlib = false) (fuel : Nat) :
    whileLoop optionBody (fuel + uses.length)
        (⟨[], uses.flatMap OptionUse.words ++ rest, posixly⟩, launcher) =
      whileLoop optionBody fuel (⟨[], rest, posixly⟩, uses.foldl Launcher.take launcher) := by
  induction uses generalizing launcher with
  | nil => rfl
  | cons use others ih =>
      have takes : takesArgument optstring use.setting.letter = some true := by
        cases use.setting <;> rfl
      have plain : use.setting.letter ≠ '-' := by cases use.setting <;> decide
      have round : optionBody (⟨[], (use :: others).flatMap OptionUse.words ++ rest, posixly⟩, launcher) =
          .inl (⟨[], others.flatMap OptionUse.words ++ rest, posixly⟩, launcher.take use) := by
        rw [List.flatMap_cons, List.append_assoc, optionBody, OptionUse.words, getopt_words takes plain]
        simp only [waits, Bool.false_eq_true, if_false, switch_letter]
      rw [List.length_cons, ← Nat.add_assoc, whileLoop_next round, List.foldl_cons]
      exact ih ((launcher.take_flags use).2.1.trans waits)

/-- The option `-g` ends the loop, whatever follows it. -/
theorem optionLoop_final (waits : launcher.ifGlib = false) :
    whileLoop optionBody 2 (⟨[], optionWords 'g' glibc attached ++ operands, posixly⟩, launcher) =
      some (some { launcher with glibc, ifGlib := true }) := by
  have takes : takesArgument optstring 'g' = some true := rfl
  have round : optionBody (⟨[], optionWords 'g' glibc attached ++ operands, posixly⟩, launcher) =
      .inl (⟨[], operands, posixly⟩, { launcher with glibc, ifGlib := true }) := by
    rw [optionBody, getopt_words takes (by decide)]
    simp [waits, Launcher.switch]
  have last : optionBody (⟨[], operands, posixly⟩, { launcher with glibc, ifGlib := true }) =
      .inr (some { launcher with glibc, ifGlib := true }) := by
    rw [optionBody]
    split <;> simp
  rw [whileLoop_next round, whileLoop_stop last]

/-- The variables at the end of the option loop. -/
def launcherOf (uses : List OptionUse) (glibc : List Char) : Launcher :=
  { settingsOf uses with glibc, ifGlib := true }

theorem accepts_iff : Accepts (commandLine uses glibc attached operands) environment after ↔
    (launcherOf uses glibc).exports environment = some after := by
  have loop : whileLoop optionBody (2 + uses.length)
      (.start environment (commandLine uses glibc attached operands), Launcher.initial) =
        some (some (launcherOf uses glibc)) :=
    (optionLoop_uses uses rfl 2).trans (optionLoop_final (settingsOf_flags uses).2.1)
  constructor
  · rintro ⟨fuel, command, done⟩
    obtain ⟨launcher, run, exported⟩ := Option.map_eq_some_iff.mp done
    obtain rfl := fuel_unique (whileLoop optionBody · _) whileLoop_mono run loop
    rw [Option.bind_eq_bind, Option.bind_some] at exported
    obtain ⟨result, exports, same⟩ := Option.bind_eq_some_iff.mp exported
    rw [exports, (Prod.mk.inj (Option.some.inj same)).2]
  · intro exports
    refine ⟨2 + uses.length, (launcherOf uses glibc).command, ?_⟩
    rw [resilienceMain, loop]
    simp [exports]

/-- The environment holds the variables of `main`. -/
theorem exports_values (exports : (launcherOf uses glibc).exports environment = some after) :
    (∀ setting name, setting.variable = some name →
      after name = some ((launcherOf uses glibc).value setting)) ∧
    after "RESILIENCE_GLIBC_PATH" = some glibc := by
  have config : (launcherOf uses glibc).flagConfig = false := (settingsOf_flags uses).1
  simp only [Launcher.exports, config, Bool.false_eq_true, if_false] at exports
  split at exports
  · cases exports
  · obtain rfl := Option.some.inj exports
    refine ⟨fun setting name named => ?_, by simp [setenv, launcherOf]⟩
    cases setting <;> simp only [Setting.variable, reduceCtorEq, Option.some.injEq] at named <;>
      subst named <;> simp [setenv, Launcher.value]

end Loop

section Exchange

variable {x y : OptionUse} {first rest uses : List OptionUse} {settings : Setting → Bool}
  {default glibc : List Char} {environment after : Environment}

/-- Two options side by side matter by their order only when both count and no later one does. -/
theorem lastArgument_exchange :
    lastArgument settings default (first ++ y :: x :: rest) =
      lastArgument settings default (first ++ x :: y :: rest) ↔
    (settings x.setting = true → settings y.setting = true →
      (∀ later ∈ rest, settings later.setting = false) → x.argument = y.argument) := by
  have cut (u v : OptionUse) : lastArgument settings default (first ++ u :: v :: rest) =
      lastArgument settings (lastArgument settings (lastArgument settings
        (lastArgument settings default first) [u]) [v]) rest := by
    rw [show first ++ u :: v :: rest = ((first ++ [u]) ++ [v]) ++ rest by simp, lastArgument_append,
      lastArgument_append, lastArgument_append]
  simp only [cut, lastArgument_singleton]
  by_cases none : ∀ later ∈ rest, settings later.setting = false
  · rw [lastArgument_none none, lastArgument_none none]
    cases settings x.setting with
    | false => simp
    | true =>
        cases settings y.setting with
        | false => simp
        | true => exact ⟨fun same _ _ _ => same, fun kept => kept rfl rfl none⟩
  · have found : ∃ later ∈ rest, settings later.setting = true := by
      simpa using none
    obtain ⟨later, mem, chosen⟩ := found
    exact ⟨fun _ _ _ absent => absurd absent none, fun _ => lastArgument_some mem chosen⟩

/-- An exchange keeps the variables of all settings but the port. -/
theorem value_exchange (different : x.setting ≠ y.setting) {setting : Setting}
    (other : setting ≠ .port) :
    (settingsOf (first ++ y :: x :: rest)).value setting =
      (settingsOf (first ++ x :: y :: rest)).value setting := by
  rw [settingsOf_value, settingsOf_value, lastArgument_exchange]
  intro here there
  simp only [writers, if_neg other, decide_eq_true_eq] at here there
  exact absurd (here.trans there.symm) different

theorem exchangeKept_iff (first : List OptionUse) (different : x.setting ≠ y.setting) :
    (settingsOf (first ++ y :: x :: rest)).value .port =
      (settingsOf (first ++ x :: y :: rest)).value .port ↔ ExchangeKept x y rest := by
  rw [settingsOf_value, settingsOf_value, lastArgument_exchange, ExchangeKept]
  simp only [writers, if_pos, writesPort, Bool.or_eq_true, decide_eq_true_eq, Bool.or_eq_false_iff,
    decide_eq_false_iff_not]
  constructor
  · rintro kept (⟨here, there⟩ | ⟨here, there⟩)
    · exact kept (.inl here) (.inr there)
    · exact kept (.inr here) (.inl there)
  · rintro kept (here | here) (there | there)
    · exact absurd (here.trans there.symm) different
    · exact kept (.inl ⟨here, there⟩)
    · exact kept (.inr ⟨here, there⟩)
    · exact absurd (here.trans there.symm) different

theorem exports_exchange_iff (different : x.setting ≠ y.setting)
    (exports : (launcherOf (first ++ x :: y :: rest) glibc).exports environment = some after) :
    (launcherOf (first ++ y :: x :: rest) glibc).exports environment = some after ↔
      ExchangeKept x y rest := by
  rw [← exchangeKept_iff first different]
  constructor
  · intro exchanged
    have here := (exports_values exports).1 .port _ rfl
    have there := (exports_values exchanged).1 .port _ rfl
    exact Option.some.inj (there.symm.trans here)
  · intro kept
    have values (setting : Setting) : (settingsOf (first ++ y :: x :: rest)).value setting =
        (settingsOf (first ++ x :: y :: rest)).value setting := by
      by_cases port : setting = .port
      · rw [port, kept]
      · exact value_exchange different port
    have flags := settingsOf_flags (first ++ y :: x :: rest)
    have others := settingsOf_flags (first ++ x :: y :: rest)
    have commands : (first ++ y :: x :: rest).any (fun use => use.setting = .command) =
        (first ++ x :: y :: rest).any (fun use => use.setting = .command) := by
      simp [List.any_append, Bool.or_left_comm]
    have same : launcherOf (first ++ y :: x :: rest) glibc = launcherOf (first ++ x :: y :: rest) glibc :=
      Launcher.ext (flags.1.trans others.1.symm) (values .port) (values .ip) (values .sysIp)
        (values .up) (values .down) rfl (values .latency) rfl
        (flags.2.2.trans (commands.trans others.2.2.symm)) (values .command) (values .ipcPort)
    rw [same]
    exact exports

end Exchange

/-- Every setting has its own last argument exactly when the port is kept, and an exchange of two
options side by side keeps the exports exactly when it keeps the port. -/
theorem options_own_iff {uses : List OptionUse} {glibc : List Char} {attached : Bool}
    {operands : List (List Char)} {environment after : Environment}
    (accepted : Accepts (commandLine uses glibc attached operands) environment after) :
    (OwnExports uses glibc after ↔ PortKept uses) ∧
    ∀ first x y rest, uses = first ++ x :: y :: rest → x.setting ≠ y.setting →
      (Accepts (commandLine (first ++ y :: x :: rest) glibc attached operands) environment after ↔
        ExchangeKept x y rest) := by
  have exports := accepts_iff.mp accepted
  obtain ⟨values, path⟩ := exports_values exports
  refine ⟨?_, ?_⟩
  · rw [← portKept_iff, OwnExports]
    constructor
    · rintro ⟨own, -⟩
      have port := (values .port _ rfl).symm.trans (own .port _ rfl)
      exact (settingsOf_value uses .port).symm.trans (Option.some.inj port)
    · intro kept
      refine ⟨fun setting name named => ?_, path⟩
      rw [values setting name named]
      refine congrArg some ((settingsOf_value uses setting).trans ?_)
      by_cases port : setting = .port
      · rw [port]
        exact kept
      · rw [writers, if_neg port]
  · rintro first x y rest rfl different
    exact accepts_iff.trans (exports_exchange_iff different exports)

section Address

/-- A port, a system address without a port behind it, and a command. -/
def addressLast : List OptionUse :=
  [⟨.port, "80".toList, false⟩, ⟨.sysIp, "10.0.0.1".toList, false⟩, ⟨.command, "ls".toList, false⟩]

/-- The same options with the port behind the address. -/
def portLast : List OptionUse :=
  [⟨.sysIp, "10.0.0.1".toList, false⟩, ⟨.port, "80".toList, false⟩, ⟨.command, "ls".toList, false⟩]

theorem portLast_own : ∃ after,
    Accepts (commandLine portLast "libc.so".toList false []) (fun _ => none) after ∧
      OwnExports portLast "libc.so".toList after := by
  obtain ⟨after, exports⟩ : ∃ after,
      (launcherOf portLast "libc.so".toList).exports (fun _ => none) = some after := ⟨_, rfl⟩
  have accepted : Accepts (commandLine portLast "libc.so".toList false []) _ after :=
    accepts_iff.mpr exports
  exact ⟨after, accepted, (options_own_iff accepted).1.mpr ((portKept_iff portLast).mp rfl)⟩

/-- The system address takes the place of the port. -/
theorem address_overwritesPort : ∃ after,
    Accepts (commandLine addressLast "libc.so".toList false []) (fun _ => none) after ∧
      ¬OwnExports addressLast "libc.so".toList after := by
  obtain ⟨after, exports⟩ : ∃ after,
      (launcherOf addressLast "libc.so".toList).exports (fun _ => none) = some after := ⟨_, rfl⟩
  refine ⟨after, accepts_iff.mpr exports, fun own => ?_⟩
  have port := ((exports_values exports).1 .port _ rfl).symm.trans (own.1 .port _ rfl)
  revert port
  decide

end Address

end BandwidthLimiter
