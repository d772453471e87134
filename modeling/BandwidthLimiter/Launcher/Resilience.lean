import BandwidthLimiter.Foundation.Fuel
import BandwidthLimiter.Foundation.Memory

namespace BandwidthLimiter
open Foundation

/-- The white space that separates the arguments of a command. -/
def isBlank (c : Char) : Bool := c = ' ' || c = '\t' || c = '\n'

/-- One round of the loop that replaces white space with NUL bytes. -/
def blankBody (state : Memory Char × Int) : (Memory Char × Int) ⊕ (Memory Char × Int) :=
  let (memory, line) := state
  if isBlank (memory.content line) = true then .inl ((memory.load line).store line '\x00', line + 1)
  else .inr (memory.load line, line)

/-- One round of the loop that skips an argument. -/
def argumentBody (state : Memory Char × Int) : (Memory Char × Int) ⊕ (Memory Char × Int) :=
  let (memory, line) := state
  if memory.content line ≠ '\x00' ∧ isBlank (memory.content line) = false then
    .inl (memory.load line, line + 1)
  else .inr (memory.load line, line)

/-- The function `parse` with the bytes of the line and the argument array; `none` in the array is
the NULL pointer. -/
def parse : Nat → Memory Char → Int → Memory (Option Int) → Int →
    Option (Memory Char × Memory (Option Int))
  | 0, _, _, _, _ => none
  | fuel + 1, memory, line, argv2, argv =>
      if memory.content line ≠ '\x00' then do
        let (memory, line) ← whileLoop blankBody fuel (memory.load line, line)
        let argv2 := argv2.store argv (some line)
        let (memory, line) ← whileLoop argumentBody fuel (memory, line)
        parse fuel memory line argv2 (argv + 1)
      else some (memory.load line, argv2.store argv none)

abbrev Environment := String → Option (List Char)

def setenv (environment : Environment) (name : String) (value : List Char) : Environment :=
  fun other => if other = name then some value else environment other

/-- The words that `getopt` has still to read: the rest of an option word, and the words behind it.
With `posixly`, the first operand ends the options. -/
structure Scanner where
  cluster : List Char
  words : List (List Char)
  posixly : Bool

/-- The words before the first call of `getopt`, which looks for `POSIXLY_CORRECT`. -/
def Scanner.start (environment : Environment) (words : List (List Char)) : Scanner :=
  ⟨[], words, (environment "POSIXLY_CORRECT").isSome⟩

/-- The next word with options; operands are passed over or end the options, and `--` ends them. -/
def nextWord (posixly : Bool) : List (List Char) → Option (List Char × List (List Char))
  | [] => none
  | word :: rest =>
      match word with
      | '-' :: c :: more => if c = '-' ∧ more = [] then none else some (c :: more, rest)
      | _ => if posixly then none else nextWord posixly rest

def optstring : List Char := "fFhHvVi:I:u:U:d:D:l:L:p:P:g:G:c:C:".toList

/-- An option of the option string may take an argument; `none` is an unknown option. -/
def takesArgument (optstring : List Char) (c : Char) : Option Bool :=
  if c = ':' then none
  else
    match optstring.dropWhile (· ≠ c) with
    | [] => none
    | _ :: ':' :: _ => some true
    | _ => some false

/-- The next option with its argument; `none` is the result −1. An option without an argument leaves
the argument empty. -/
def getopt (scanner : Scanner) : Option (Char × List Char) × Scanner :=
  let left (cluster : List Char) (words : List (List Char)) : Scanner := ⟨cluster, words, scanner.posixly⟩
  match if scanner.cluster = [] then nextWord scanner.posixly scanner.words
    else some (scanner.cluster, scanner.words) with
  | none | some ([], _) => (none, left [] [])
  | some (c :: more, words) =>
      match takesArgument optstring c with
      | none => (some ('?', []), left more words)
      | some false => (some (c, []), left more words)
      | some true =>
          if more ≠ [] then (some (c, more), left [] words)
          else
            match words with
            | [] => (some ('?', []), left [] [])
            | optarg :: words => (some (c, optarg), left [] words)

/-- The variables of `main` that the options set. -/
@[ext] structure Launcher where
  flagConfig : Bool
  port : List Char
  ipAddr : List Char
  sysIp : List Char
  upLimit : List Char
  downLimit : List Char
  glibc : List Char
  latency : List Char
  ifGlib : Bool
  cmdFlag : Bool
  command : List Char
  ipcPort : List Char

def Launcher.initial : Launcher where
  flagConfig := false
  port := "-1".toList
  ipAddr := "127.0.0.1".toList
  sysIp := "127.0.0.1".toList
  upLimit := "-1".toList
  downLimit := "-1".toList
  glibc := []
  latency := []
  ifGlib := false
  cmdFlag := false
  command := []
  ipcPort := "8888".toList

/-- The `switch` of the option loop; `none` is a call of `usage`, which exits. -/
def Launcher.switch (launcher : Launcher) (opt : Char) (optarg : List Char) : Option Launcher :=
  match opt with
  | 'f' | 'F' => some { launcher with flagConfig := true }
  | 'u' | 'U' => some { launcher with upLimit := optarg }
  | 'd' | 'D' => some { launcher with downLimit := optarg }
  | 'l' | 'L' => some { launcher with latency := optarg }
  | 'i' => some { launcher with ipAddr := optarg }
  -- There is no `break`, so the port is set too.
  | 'I' => some { launcher with sysIp := optarg, port := optarg }
  | 'p' => some { launcher with port := optarg }
  -- This case goes on to print the version.
  | 'P' => some { launcher with ipcPort := optarg }
  | 'v' | 'V' => some launcher
  | 'g' | 'G' => some { launcher with glibc := optarg, ifGlib := true }
  -- This case goes on to the message for an unknown option.
  | 'C' | 'c' => some { launcher with command := optarg, cmdFlag := true }
  | '?' => some launcher
  | _ => none

/-- One round of the option loop; the next option is read before the test for `-g`. -/
def optionBody (state : Scanner × Launcher) : (Scanner × Launcher) ⊕ Option Launcher :=
  let (scanner, launcher) := state
  match getopt scanner with
  | (none, _) => .inr (some launcher)
  | (some (opt, optarg), scanner) =>
      if launcher.ifGlib then .inr (some launcher)
      else
        match launcher.switch opt optarg with
        | none => .inr none
        | some launcher => .inl (scanner, launcher)

/-- The exports of `main`; `none` is a call of `usage`. -/
def Launcher.exports (launcher : Launcher) (environment : Environment) : Option Environment :=
  let call (environment : Environment) := setenv environment "RESILIENCE_GLIBC_PATH" launcher.glibc
  if launcher.flagConfig then
    if !launcher.cmdFlag then none
    else some (call (setenv environment "RESILIENCE_CONFIGFLAG" "1".toList))
  else if !launcher.ifGlib || !launcher.cmdFlag then none
  else
    let environment := setenv environment "RESILIENCE_UP_LIMITS" launcher.upLimit
    let environment := setenv environment "RESILIENCE_IPS" launcher.ipAddr
    let environment := setenv environment "RESILIENCE_PORTS" launcher.port
    let environment := setenv environment "RESILIENCE_DOWN_LIMITS" launcher.downLimit
    let environment := setenv environment "RESILIENCE_LATENCY" launcher.latency
    let environment := setenv environment "RESILIENCE_SYS_IP" launcher.sysIp
    let environment := setenv environment "RESILIENCE_IPC_PORT" launcher.ipcPort
    some (call (setenv environment "RESILIENCE_CONFIGFLAG" "-1".toList))

/-- The part of `main` up to the split of the command: the command and the environment. The outer
`none` means that the fuel runs out, the inner one is a call of `usage`. -/
def resilienceMain (fuel : Nat) (words : List (List Char)) (environment : Environment) :
    Option (Option (List Char × Environment)) :=
  (whileLoop optionBody fuel (.start environment words, Launcher.initial)).map fun launcher => do
    let launcher ← launcher
    let environment ← launcher.exports environment
    return (launcher.command, environment)

end BandwidthLimiter
