import BandwidthLimiter.Config.Registration
import BandwidthLimiter.Launcher.Main
import BandwidthLimiter.Limiter.Bounds
import BandwidthLimiter.Limiter.Interleaving
import BandwidthLimiter.Limiter.Threads

namespace BandwidthLimiter
open Foundation

/-- The port table of the options of a launcher without a configuration file. -/
def Launcher.table (launcher : Launcher) : RegisterEnvStruct :=
  doRegister (atoi launcher.port) (atoi launcher.upLimit) (atoi launcher.downLimit)
    (atoi launcher.latency)

/-- The start of the library behind the launcher. -/
def Launcher.starts (launcher : Launcher) (fuel : Nat) (host : Host) : Option (Except Stop Startup) :=
  if launcher.flagConfig then
    let _ := host.copy
    (doRegisterFromConfigFile host.memory fuel { portRb := none } host.configFile).map
      fun registration => .ok (.ofRegistration host.environment registration)
  else some (.ok ⟨true, initEnv launcher.table, host.environment⟩)

section Launch

variable {launcher : Launcher} {environment after : Environment} {fuel : Nat}
  {words : List (List Char)} {command : List Char} {host : Host}

/-- The start without a configuration file reads four settings. -/
theorem environment_starts {port up down latency : List Char}
    (flag : host.environment "RESILIENCE_CONFIGFLAG" = some "-1".toList)
    (ports : host.environment "RESILIENCE_PORTS" = some port)
    (ups : host.environment "RESILIENCE_UP_LIMITS" = some up)
    (downs : host.environment "RESILIENCE_DOWN_LIMITS" = some down)
    (latencies : host.environment "RESILIENCE_LATENCY" = some latency) (fuel : Nat) :
    initEnvFromHost fuel host = some (.ok ⟨true,
      initEnv (doRegister (atoi port) (atoi up) (atoi down) (atoi latency)), host.environment⟩) := by
  have registered : doRegisterFromEnvironment host.environment =
      .ok (doRegister (atoi port) (atoi up) (atoi down) (atoi latency)) := by
    simp only [doRegisterFromEnvironment, atoiGetenv, ports, ups, downs, latencies, Bind.bind,
      Except.bind, pure, Except.pure]
    split
    · rename_i none
      rw [none, doRegister_none]
    · rfl
  have config : atoiGetenv host.environment "RESILIENCE_CONFIGFLAG" = .ok (-1) := by
    rw [atoiGetenv, flag]
    rfl
  rw [initEnvFromHost, config, registered]
  rfl

/-- The variables that the start reads are those that the launcher writes. -/
theorem exports_starts (exports : launcher.exports environment = some after)
    (same : host.environment = after) (fuel : Nat) :
    initEnvFromHost fuel host = launcher.starts fuel host := by
  subst same
  cases config : launcher.flagConfig with
  | true =>
      simp only [Launcher.exports, config, if_true] at exports
      split at exports
      · cases exports
      · have flag : atoiGetenv host.environment "RESILIENCE_CONFIGFLAG" = .ok 1 := by
          rw [← Option.some.inj exports]
          rfl
        simp only [initEnvFromHost, flag, if_true, Launcher.starts, config]
  | false =>
      simp only [Launcher.exports, config, Bool.false_eq_true, if_false] at exports
      split at exports
      · cases exports
      · have written := (Option.some.inj exports).symm
        have started : initEnvFromHost fuel host =
            some (.ok ⟨true, initEnv launcher.table, host.environment⟩) := by
          apply environment_starts <;> rw [written] <;> rfl
        rw [started, Launcher.starts, config]
        rfl

/-- Whatever arguments the launcher accepts, the start of the library finds each variable that it
reads, and it builds the table of the last options or of the configuration file. -/
theorem accepted_starts
    (accepted : resilienceMain fuel words environment = some (some (command, after))) :
    ∃ launcher, whileLoop optionBody fuel (.start environment words, Launcher.initial) =
        some (some launcher) ∧
      ∀ startFuel file memory copy, initEnvFromHost startFuel ⟨after, file, memory, copy⟩ =
        launcher.starts startFuel ⟨after, file, memory, copy⟩ := by
  obtain ⟨result, loop, returned⟩ := Option.map_eq_some_iff.mp accepted
  obtain ⟨launcher, rfl, rest⟩ := Option.bind_eq_some_iff.mp returned
  obtain ⟨written, exports, same⟩ := Option.bind_eq_some_iff.mp rest
  obtain ⟨-, rfl⟩ := Prod.mk.inj (Option.some.inj same)
  exact ⟨launcher, loop, fun startFuel file memory copy => exports_starts exports rfl startFuel⟩

/-- A port with its limits, and a command. -/
def webWords : List (List Char) :=
  ["-p".toList, "80".toList, "-u".toList, "5".toList, "-d5".toList, "-c".toList, "ls".toList,
    "-g".toList, "libc.so".toList]

/-- The options of the words. -/
def webOptions : List (Char × List Char) :=
  [('p', "80".toList), ('u', "5".toList), ('d', "5".toList), ('c', "ls".toList), ('g', "libc.so".toList)]

theorem webWords_gives : Gives (.start (fun _ => none) webWords) webOptions :=
  .option rfl (.option rfl (.option rfl (.option rfl (.option rfl (.stop rfl)))))

theorem webWords_starts : ∃ fuel command after launcher,
    resilienceMain fuel webWords (fun _ => none) = some (some (command, after)) ∧
    whileLoop optionBody fuel (.start (fun _ => none) webWords, Launcher.initial) =
      some (some launcher) ∧
    after "RESILIENCE_GLIBC_PATH" = some "libc.so".toList ∧
    initEnvFromHost 0 ⟨after, none, fun _ => none, .leftToRight⟩ =
      launcher.starts 0 ⟨after, none, fun _ => none, .leftToRight⟩ := by
  obtain ⟨fuel, command, after, accepted⟩ := exists_accepted webWords_gives (by decide)
  have path := (accepted_exported webWords_gives accepted).path
  obtain ⟨launcher, loop, starts⟩ := accepted_starts accepted
  exact ⟨fuel, command, after, launcher, accepted, loop, path, starts 0 none (fun _ => none) .leftToRight⟩

end Launch

section CommandLine

variable {options : List (Char × List Char)} {words : List (List Char)} {command : List Char}
  {environment after : Environment} {rounds fuel : Nat} {file : Option (List Char)}
  {memory : TextPointer → Option (List Char)} {copy : OverlappingCopy} {startup : Startup}

/-- The text of a setting. -/
def settingText (options : List (Char × List Char)) (setting : Setting) : List Char :=
  lastOf setting.letters (Launcher.initial.value setting) options

/-- The port table of the options. -/
def optionTable (options : List (Char × List Char)) : RegisterEnvStruct :=
  doRegister (atoi (settingText options .port)) (atoi (settingText options .up))
    (atoi (settingText options .down)) (atoi (settingText options .latency))

/-- The library behind options without a configuration file starts with their table. -/
theorem exported_starts (exported : Exported options environment after)
    (plain : ¬Given ['f', 'F'] options) (fuel : Nat) (file : Option (List Char))
    (memory : TextPointer → Option (List Char)) (copy : OverlappingCopy) :
    initEnvFromHost fuel ⟨after, file, memory, copy⟩ =
      some (.ok ⟨true, initEnv (optionTable options), after⟩) := by
  have settings (setting : Setting) (name : String) (named : setting.variable = some name) :
      after name = some (settingText options setting) := by
    rw [exported.settings setting name named, if_neg plain]
    rfl
  have flag := exported.flag
  rw [if_neg plain] at flag
  exact environment_starts flag (settings .port _ rfl) (settings .up _ rfl) (settings .down _ rfl)
    (settings .latency _ rfl) fuel

/-- Without a port, no section changes the controller. -/
theorem portless_unchanged {events : List Section} {contStr : ControllerStruct}
    (run : Run SectionStep (initEnv ⟨none⟩) events contStr) : contStr = initEnv ⟨none⟩ := by
  apply run.invariant (fun contStr => contStr = initEnv ⟨none⟩) rfl
  rintro contStr event next rfl taken
  cases taken with
  | bind | connect => rfl
  | accept | dup | dup2 =>
      simp only [BandwidthLimiter.accept, BandwidthLimiter.dup, BandwidthLimiter.dup2]
      split <;> rfl
  | close done => exact (Except.ok.inj done).symm
  | enter done => exact (Prod.mk.inj (Except.ok.inj done)).1.symm
  | @leave _ flag fd moved now done =>
      have lost : getDestPort (initEnv ⟨none⟩).socStr fd = .ok none := rfl
      exact (Except.ok.inj ((leave_lost lost flag moved now).symm.trans done)).symm

/-- Without a configuration file and a port among the options, the library is transparent in every
order of the steps of all threads: the controller never changes, and each data call passes its own
length on. -/
theorem portless_transparent {T : Type} [DecidableEq T] {clients : T → Client}
    {moves : List (Move T Request Request.Answer)}
    {pool : Pool T Globals Ending Request Request.Answer} {contStr : ControllerStruct}
    (given : Gives (.start environment words) options)
    (accepted : resilienceMain rounds words environment = some (some (command, after)))
    (plain : ¬Given ['f', 'F'] (handled options)) (portless : ¬Given ['p', 'I'] (handled options))
    (begun : initEnvFromHost fuel ⟨after, file, memory, copy⟩ = some (.ok startup))
    (run : Run PoolStep (clientPool (startOf (.ok startup)) clients) moves pool)
    (free : pool.holder = none) (found : pool.shared.insContStr = some contStr) :
    contStr = initEnv ⟨none⟩ ∧ ∀ flag fd count now libc,
      transfer contStr flag fd count now libc = .ok (contStr, (libc count).1) := by
  have started := exported_starts (accepted_exported given accepted) plain fuel file memory copy
  obtain rfl := Except.ok.inj (Option.some.inj (begun.symm.trans started))
  have table : optionTable (handled options) = ⟨none⟩ := by
    have port : settingText (handled options) .port = "-1".toList := lastOf_none portless
    rw [optionTable, port]
    rfl
  rw [table] at run
  rw [table] at begun
  obtain ⟨sections, reached⟩ := reached_of_free begun run free found
  obtain rfl := portless_unchanged reached
  exact ⟨rfl, fun _ _ _ _ _ => rfl⟩

/-- Two threads that open a socket each. -/
def socketClients (_ : Bool) : Client := .call (.socket 2 1 0) fun _ => .stop

/-- One of the threads has run its first section. -/
theorem socketClients_run (first : ControllerStruct) : ∃ moves pool,
    Run PoolStep (clientPool (.ok (first, true)) socketClients) moves pool ∧
      pool.holder = none ∧ pool.shared.insContStr = some first := by
  obtain ⟨exchanges, -, -, alone⟩ :=
    alone_initEnv first (.unlock (.ask (.libc .socket [2, 1, 0]) fun _ => .done))
  have section' : SerialStep (clientPool (.ok (first, true)) socketClients)
      (.locked true () exchanges) _ := .locked rfl alone ()
  obtain ⟨moves, run, -⟩ := Pool.serialStep_unfolds rfl section'
  exact ⟨moves, _, run, rfl, rfl⟩

theorem listing_transparent : ∃ (moves : List (Move Bool Request Request.Answer)) (contStr : ControllerStruct)
    (pool : Pool Bool Globals Ending Request Request.Answer),
    Run PoolStep (clientPool (.ok (initEnv (optionTable (handled listingOptions)), true)) socketClients)
      moves pool ∧
    pool.shared.insContStr = some contStr ∧ contStr = initEnv ⟨none⟩ ∧ ∀ flag fd count now libc,
      transfer contStr flag fd count now libc = .ok (contStr, (libc count).1) := by
  obtain ⟨rounds, command, after, accepted⟩ := exists_accepted listing_gives (by decide)
  have begun := exported_starts (accepted_exported listing_gives accepted) (by decide) 0 none
    (fun _ => none) .leftToRight
  obtain ⟨moves, pool, run, free, found⟩ :=
    socketClients_run (initEnv (optionTable (handled listingOptions)))
  exact ⟨moves, _, pool, run, found,
    portless_transparent listing_gives accepted (by decide) (by decide) begun run free found⟩

/-- A port has its entry in the table of the options. -/
theorem optionTable_get (proper : atoi (settingText options .port) ≠ -1) :
    (optionTable options).get (UInt32.ofInt (atoi (settingText options .port))) =
      some (.ofLimits (UInt32.ofInt (atoi (settingText options .port)))
        (atoi (settingText options .up)) (atoi (settingText options .down))
        (UInt32.ofInt (atoi (settingText options .latency)))) := by
  rw [optionTable, doRegister, if_neg proper]
  exact (RbTree.unique_create.get_insert rfl _).trans (if_pos rfl)

/-- Sequential calls on the connections of a registered port keep to the limit that the registration
gave it, after any sections. -/
theorem registered_rate {env : RegisterEnvStruct} {port : UInt32} {data : PortStruct} {flag : Bool}
    {events : List Section} {contStr : ControllerStruct} {clock : Int} {calls : List Call}
    {state : ControllerStruct × Int} {first last : Int} {k : Nat} (registered : Registered env)
    (entry : env.get port = some data) (positive : 0 < data.limit flag)
    (sections : Run SectionStep (initEnv env) events contStr)
    (started : (getTimeVal contStr.regEnvStr port flag).nanos ≤ clock)
    (run : Run (CallStep flag port) (contStr, clock) calls state)
    (short : last - first < k * nanoMult) : transferred calls first last ≤ k * data.limit flag := by
  have reachable : Reachable contStr := ⟨env, events, registered, sections⟩
  -- The limits at the start are those of every later entry.
  have kept := sectionRun_limits sections port flag
  simp only [initEnv, entry, Option.map_some, Option.map_eq_some_iff] at kept
  obtain ⟨current, found, same⟩ := kept
  have time : getTimeVal contStr.regEnvStr port flag = current.startTime flag := by
    simp [getTimeVal, found]
  have bounds := (reachable.metered port current found flag).2 (by omega)
  have fresh : Measured flag port (current.limit flag) [] (contStr, clock) current :=
    ⟨found, rfl, .start bounds.1 bounds.2 (time ▸ started)⟩
  obtain ⟨later, measured⟩ := fresh.run run
  rw [← same]
  exact measured.rate short

/-- The option that limits a direction. -/
def directionSetting (flag : Bool) : Setting := if flag then .down else .up

/-- From the command line to the bytes on the wire: when the options name no configuration file, but a
port and a positive limit, the sequential calls on the connections of the port transfer at most the
limit, in thousands of bytes, in each second, after any sections of other calls. -/
theorem commandLine_rate {port : UInt32} {flag : Bool} {events : List Section}
    {contStr : ControllerStruct} {clock : Int} {calls : List Call} {state : ControllerStruct × Int}
    {first last : Int} {k : Nat} (given : Gives (.start environment words) options)
    (accepted : resilienceMain rounds words environment = some (some (command, after)))
    (plain : ¬Given ['f', 'F'] (handled options))
    (proper : atoi (settingText (handled options) .port) ≠ -1)
    (named : UInt32.ofInt (atoi (settingText (handled options) .port)) = port)
    (positive : 0 < atoi (settingText (handled options) (directionSetting flag)))
    (begun : initEnvFromHost fuel ⟨after, file, memory, copy⟩ = some (.ok startup))
    (sections : Run SectionStep startup.contStr events contStr)
    (started : (getTimeVal contStr.regEnvStr port flag).nanos ≤ clock)
    (run : Run (CallStep flag port) (contStr, clock) calls state)
    (short : last - first < k * nanoMult) : transferred calls first last ≤
      k * (1000 * atoi (settingText (handled options) (directionSetting flag))) := by
  have starts := exported_starts (accepted_exported given accepted) plain fuel file memory copy
  obtain rfl := Except.ok.inj (Option.some.inj (begun.symm.trans starts))
  have entry := optionTable_get proper
  rw [named] at entry
  have read : PortStruct.limit (.ofLimits port (atoi (settingText (handled options) .up))
      (atoi (settingText (handled options) .down))
      (UInt32.ofInt (atoi (settingText (handled options) .latency)))) flag =
        1000 * atoi (settingText (handled options) (directionSetting flag)) := by
    cases flag <;> simp only [directionSetting, PortStruct.limit, PortStruct.ofLimits,
      PortStruct.scaled] at positive ⊢ <;> grind
  rw [← read]
  exact registered_rate (.environment ..) entry (by omega) sections started run short

/-- A read of the connection 4 to port 80 that takes the whole budget. -/
def webRead : Call := ⟨4, 9000, ⟨1, 0⟩, 5000, ⟨1, 5⟩⟩

set_option maxRecDepth 4000 in
theorem webWords_rate : ∃ rounds command after startup state,
    resilienceMain rounds webWords (fun _ => none) = some (some (command, after)) ∧
    initEnvFromHost 0 ⟨after, none, fun _ => none, .leftToRight⟩ = some (.ok startup) ∧
    Run SectionStep startup.contStr [.connect 4 ⟨afInet, 0, 80⟩] (clientConnection 5) ∧
    Run (CallStep true 80) (clientConnection 5, 0) [webRead] state ∧
    transferred [webRead] 0 1000000000 ≤ (2 : Nat) * (1000 * 5) := by
  obtain ⟨rounds, command, after, accepted⟩ := exists_accepted webWords_gives (by decide)
  have dest : getDestPort (clientConnection 5).socStr 4 = .ok (some 80) := by decide
  obtain ⟨next, called, -⟩ := callStep_exists (clientConnection 5) 0 true webRead dest clientEntry
    (by decide) (by decide) (by decide) (by decide)
  have sections : Run SectionStep (initEnv (optionTable (handled webOptions)))
      [.connect 4 ⟨afInet, 0, 80⟩] (clientConnection 5) := .cons (.connect 4 ⟨afInet, 0, 80⟩) .start
  have port : UInt32.ofInt (atoi (settingText (handled webOptions) .port)) = 80 := by decide
  have started : getTimeVal (clientConnection 5).regEnvStr 80 true = .zero := by
    rw [getTimeVal, clientEntry]
    rfl
  have begun := exported_starts (accepted_exported webWords_gives accepted) (by decide) 0 none
    (fun _ => none) .leftToRight
  have run : Run (CallStep true 80) (clientConnection 5, 0) [webRead] _ := .cons called .start
  exact ⟨rounds, command, after, _, _, accepted, begun, sections, run,
    commandLine_rate webWords_gives accepted (by decide) (by decide) port (by decide) begun sections
      (by rw [started]; decide) run (by decide)⟩

end CommandLine

section ConfigFile

variable {entries : List ConfigEntry} {path : List Char} {fuel : Nat} {host : Host} {startup : Startup}

/-- The library that is told to read a rendered file starts with the ports of its entries. -/
theorem renderedFile_starts (file : RenderedFile entries path)
    (distinct : (entries.map fun entry => entry.port.portNo).Nodup)
    (flag : atoiGetenv host.environment "RESILIENCE_CONFIGFLAG" = .ok 1)
    (configured : host.configFile = some file.content)
    (begun : initEnvFromHost fuel host = some (.ok startup)) :
    startup.contStr = initEnv (doRegisterFromConfig (entries.map ConfigEntry.port)) := by
  let _ := host.copy
  rw [initEnvFromHost, flag] at begun
  obtain ⟨registration, registered, same⟩ := Option.map_eq_some_iff.mp begun
  obtain rfl := Except.ok.inj same
  obtain ⟨enough, state, parsed, ports, -⟩ := file.parses distinct
  rw [configured] at registered
  cases finished : parseConfig fuel (some file.content) with
  | none => simp [doRegisterFromConfigFile, finished] at registered
  | some result =>
      -- The parser has one result for every fuel that suffices.
      have one := parseConfig_mono finished (Nat.le_max_left fuel enough)
      rw [parseConfig_mono parsed (Nat.le_max_right fuel enough)] at one
      obtain rfl := Option.some.inj one
      rw [doRegisterFromConfigFile_parsed host.memory _ finished, ports] at registered
      obtain ⟨text, -, rfl⟩ := Option.map_eq_some_iff.mp registered
      rfl

/-- From the configuration file to the bytes on the wire: each port that the file names with a positive
limit keeps to it, in thousands of bytes in each second, whatever other ports the file names, however
comments and empty lines stand in it, and after any sections of other calls. -/
theorem configFile_rate {entry : ConfigEntry} {limit : Int} {flag : Bool} {events : List Section}
    {contStr : ControllerStruct} {clock : Int} {calls : List Call} {state : ControllerStruct × Int}
    {first last : Int} {k : Nat} (file : RenderedFile entries path)
    (distinct : (entries.map fun entry => entry.port.portNo).Nodup) (mem : entry ∈ entries)
    (limited : (if flag then entry.port.downLimit else entry.port.upLimit) = limit)
    (positive : 0 < limit)
    (config : atoiGetenv host.environment "RESILIENCE_CONFIGFLAG" = .ok 1)
    (configured : host.configFile = some file.content)
    (begun : initEnvFromHost fuel host = some (.ok startup))
    (sections : Run SectionStep startup.contStr events contStr)
    (started : (getTimeVal contStr.regEnvStr entry.port.portNo flag).nanos ≤ clock)
    (run : Run (CallStep flag entry.port.portNo) (contStr, clock) calls state)
    (short : last - first < k * nanoMult) : transferred calls first last ≤ k * (1000 * limit) := by
  rw [renderedFile_starts file distinct config configured begun] at sections
  have numbers : (entries.map ConfigEntry.port).map PortStr.portNo =
      entries.map fun entry => entry.port.portNo := List.map_map
  have held := get_doRegisterFromConfig (numbers ▸ distinct) (List.mem_map_of_mem mem)
  have read : PortStruct.limit (.ofLimits entry.port.portNo entry.port.upLimit
      entry.port.downLimit entry.port.latency) flag = 1000 * limit := by
    cases flag <;> simp only [PortStruct.limit, PortStruct.ofLimits, PortStruct.scaled] at limited ⊢ <;>
      grind
  rw [← read]
  exact registered_rate (.config _) held (by omega) sections started run short

/-- A write to port 5000 that takes the whole budget of the file with one port. -/
def webWrite : Call := ⟨4, 2000000, ⟨1, 0⟩, 1024000, ⟨1, 5⟩⟩

/-- The connection 4 to the port of the file. -/
def webFileConnection : ControllerStruct :=
  connect (initEnv (doRegisterFromConfig [webEntry.port])) 4 ⟨afInet, 19, 136⟩

set_option maxRecDepth 4000 in
theorem webFile_rate : transferred [webWrite] 0 1000000000 ≤ (2 : Nat) * (1000 * 1024) := by
  let _ := OverlappingCopy.leftToRight
  let host : Host := ⟨setenv (fun _ => none) "RESILIENCE_CONFIGFLAG" ['1'], some webFile.content,
    fun _ => some [], .leftToRight⟩
  obtain ⟨fuel, state, parsed, ports, -⟩ := webFile.parses (by decide)
  have flag : atoiGetenv host.environment "RESILIENCE_CONFIGFLAG" = .ok 1 := by decide
  have begun : ∃ startup, initEnvFromHost fuel host = some (.ok startup) := by
    have registered : doRegisterFromConfigFile host.memory fuel { portRb := none } host.configFile = _ :=
      doRegisterFromConfigFile_parsed host.memory _ parsed
    rw [initEnvFromHost, flag]
    simp only [if_true, registered]
    exact ⟨_, rfl⟩
  obtain ⟨startup, begun⟩ := begun
  have dest : getDestPort webFileConnection.socStr 4 = .ok (some 5000) := by decide
  have entry : webFileConnection.regEnvStr.get 5000 = some (.ofLimits 5000 1024 (-1) 245) := by decide
  obtain ⟨next, called, -⟩ := callStep_exists webFileConnection 0 false webWrite dest entry
    (by decide) (by decide) (by decide) (by decide)
  have sections : Run SectionStep startup.contStr [.connect 4 ⟨afInet, 19, 136⟩] webFileConnection := by
    rw [renderedFile_starts webFile (by decide) flag rfl begun]
    exact .cons (.connect 4 ⟨afInet, 19, 136⟩) .start
  have started : getTimeVal webFileConnection.regEnvStr 5000 false = .zero := by
    rw [getTimeVal, entry]
    rfl
  exact configFile_rate webFile (by decide) (List.mem_singleton_self webEntry) rfl (by decide) flag rfl
    begun sections (by rw [show webEntry.port.portNo = 5000 from rfl, started]; decide)
    (.cons called .start) (by decide)

end ConfigFile

end BandwidthLimiter
