import BandwidthLimiter.Config.Export
import BandwidthLimiter.Launcher.Options
import BandwidthLimiter.Limiter.Section

namespace BandwidthLimiter
open Foundation

/-- What the start reads: the environment, the configuration file, and the text that a pointer of the
parser leads to after its return; and how the C library copies a text over itself. -/
structure Host where
  environment : Environment
  configFile : Option (List Char)
  memory : TextPointer → Option (List Char)
  copy : OverlappingCopy

/-- The result of the start with the controller and the environment behind it. -/
structure Startup where
  returnVal : Bool
  contStr : ControllerStruct
  environment : Environment

/-- The number in a variable; `atoi` reads through the NULL pointer of a missing variable. -/
def atoiGetenv (environment : Environment) (name : String) : Except Stop Int :=
  match environment name with
  | none => .error .nullDereference
  | some text => .ok (atoi text)

/-- The function `do_register` with its variables; the other limits are read only for a port. -/
def doRegisterFromEnvironment (environment : Environment) : Except Stop RegisterEnvStruct := do
  let port ← atoiGetenv environment "RESILIENCE_PORTS"
  if port = -1 then return { portRb := none }
  else
    let upLimit ← atoiGetenv environment "RESILIENCE_UP_LIMITS"
    let downLimit ← atoiGetenv environment "RESILIENCE_DOWN_LIMITS"
    let latency ← atoiGetenv environment "RESILIENCE_LATENCY"
    return doRegister port upLimit downLimit latency

/-- The start behind a registration from the file, which exports its path. -/
def Startup.ofRegistration (environment : Environment) (registration : Registration) : Startup where
  returnVal := registration.returnVal
  contStr := initEnv registration.env
  environment := match registration.glibcPath with
    | none => environment
    | some path => setenv environment "RESILIENCE_GLIBC_PATH" path

/-- The function `__init_env__`; `none` means that the parser does not return. -/
def initEnvFromHost (fuel : Nat) (host : Host) : Option (Except Stop Startup) :=
  match atoiGetenv host.environment "RESILIENCE_CONFIGFLAG" with
  | .error stop => some (.error stop)
  | .ok flag =>
      if flag = 1 then
        let _ := host.copy
        (doRegisterFromConfigFile host.memory fuel { portRb := none } host.configFile).map
          fun registration => .ok (.ofRegistration host.environment registration)
      else
        some ((doRegisterFromEnvironment host.environment).map fun env =>
          { returnVal := true, contStr := initEnv env, environment := host.environment })

section Results

variable {fuel : Nat} {host : Host} {environment after : Environment} {startup : Startup}

theorem doRegister_none (upLimit downLimit latency : Int) :
    doRegister (-1) upLimit downLimit latency = { portRb := none } := rfl

/-- A registration from the environment has the table of its numbers. -/
theorem doRegisterFromEnvironment_ok {env : RegisterEnvStruct}
    (done : doRegisterFromEnvironment environment = .ok env) : Registered env := by
  simp only [doRegisterFromEnvironment, Bind.bind, Except.bind, pure, Except.pure] at done
  split at done
  · cases done
  · split at done
    · obtain rfl := Except.ok.inj done
      exact doRegister_none 0 0 0 ▸ .environment (-1) 0 0 0
    · split at done
      · cases done
      · split at done
        · cases done
        · split at done
          · cases done
          · exact Except.ok.inj done ▸ .environment ..

/-- A start that returns is true, with no section behind it and a registered table. -/
theorem initEnvFromHost_ok (done : initEnvFromHost fuel host = some (.ok startup)) :
    startup.returnVal = true ∧ ∃ env, Registered env ∧ startup.contStr = initEnv env := by
  unfold initEnvFromHost at done
  split at done
  · cases done
  · split at done
    · let _ := host.copy
      obtain ⟨registration, registered, same⟩ := Option.map_eq_some_iff.mp done
      obtain rfl := Except.ok.inj same
      cases parsed : parseConfig fuel host.configFile with
      | none => simp [doRegisterFromConfigFile, parsed] at registered
      | some result =>
          rw [doRegisterFromConfigFile_parsed host.memory _ parsed] at registered
          obtain ⟨text, -, rfl⟩ := Option.map_eq_some_iff.mp registered
          exact ⟨rfl, _, .config _, rfl⟩
    · have same := Option.some.inj done
      cases registered : doRegisterFromEnvironment host.environment with
      | error stop => simp [registered, Except.map] at same
      | ok env =>
          simp only [registered, Except.map, Except.ok.injEq] at same
          subst same
          exact ⟨rfl, env, doRegisterFromEnvironment_ok registered, rfl⟩

end Results

end BandwidthLimiter
