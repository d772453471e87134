import BandwidthLimiter.Limiter.Controller
import Mathlib.Data.Finset.Image

namespace BandwidthLimiter
open Foundation

/-- The controller and the descriptors that are open in the kernel. -/
structure Process where
  contStr : ControllerStruct
  opened : Finset Int

/-- The events of a sequential program: a new socket, or a whole wrapper call. -/
inductive ProcessEvent where
  | socket (fd : Int)
  | call (event : Section)

namespace Process

/-- The kernel returns a number that is not open, or it returns an error. -/
def Allows (process : Process) : Section → Prop
  | .bind _ _ => True
  | .connect _ _ => True
  | .accept fd acpFd =>
      acpFd = -1 ∨ fd ∈ process.opened ∧ 0 ≤ acpFd ∧ acpFd ∉ process.opened
  | .close _ => True
  | _ => False

/-- The open descriptors after a call. -/
def openedAfter (process : Process) : Section → Finset Int
  | .accept _ acpFd => if acpFd = -1 then process.opened else insert acpFd process.opened
  | .close fd => process.opened.erase fd
  | _ => process.opened

end Process

/-- One event of a sequential program without duplicated descriptors. -/
inductive ProcessStep : Process → ProcessEvent → Process → Prop where
  | socket {process : Process} {fd : Int} (proper : 0 ≤ fd) (free : fd ∉ process.opened) :
      ProcessStep process (.socket fd) { process with opened := insert fd process.opened }
  | call {process : Process} {event : Section} {next : ControllerStruct}
      (allowed : process.Allows event) (taken : SectionStep process.contStr event next) :
      ProcessStep process (.call event) ⟨next, process.openedAfter event⟩

/-- The effect of an event on the registry. -/
noncomputable def ProcessEvent.apply (env : RegisterEnvStruct) (registry : Registry Int UInt32) :
    ProcessEvent → Registry Int UInt32
  | .socket _ => registry
  | .call event => event.apply env registry

/-- The processes that a sequential program reaches after the registration of the ports. -/
def Process.Reached (process : Process) (events : List ProcessEvent) : Prop :=
  ∃ env opened, Registered env ∧ Run ProcessStep ⟨initEnv env, opened⟩ events process

namespace ProcessStep

variable {process next : Process} {event : ProcessEvent} {registry : Registry Int UInt32}

/-- Every event acts on the registry. -/
theorem denotes (denotes : Denotes process.contStr registry)
    (taken : ProcessStep process event next) :
    Denotes next.contStr (event.apply process.contStr.regEnvStr registry) := by
  cases taken with
  | socket proper free => exact denotes
  | @call event later allowed taken =>
      apply denotes.step taken
      cases event <;> first | rfl | cases allowed

/-- A successful accept opens the number that the kernel returns. -/
theorem accepts {fd acpFd : Int} (listens : fd ∈ process.opened) (proper : 0 ≤ acpFd)
    (free : acpFd ∉ process.opened) : ProcessStep process (.call (.accept fd acpFd))
      ⟨accept process.contStr fd acpFd, insert acpFd process.opened⟩ := by
  have opened : process.openedAfter (.accept fd acpFd) = insert acpFd process.opened :=
    if_neg (by omega)
  exact opened ▸ .call (.inr ⟨listens, proper, free⟩) (.accept fd acpFd)

theorem binds (process : Process) (fd : Int) (addr : Sockaddr) :
    ProcessStep process (.call (.bind fd addr)) ⟨bind process.contStr fd addr, process.opened⟩ :=
  .call trivial (.bind fd addr)

theorem closes {fd : Int} {later : ControllerStruct} (done : close process.contStr fd = .ok later) :
    ProcessStep process (.call (.close fd)) ⟨later, process.opened.erase fd⟩ :=
  .call trivial (.close done)

end ProcessStep

theorem Process.Reached.denotes {process : Process} {events : List ProcessEvent}
    (reached : process.Reached events) : ∃ registry, Denotes process.contStr registry := by
  obtain ⟨env, opened, -, run⟩ := reached
  exact run.invariant (fun process => ∃ registry, Denotes process.contStr registry)
    ⟨_, denotes_initEnv env⟩ fun _ _ _ ⟨_, denotes⟩ taken => ⟨_, taken.denotes denotes⟩

section Server

/-- The server process before the `bind` of its socket 3. -/
def serverProcess : Process := ⟨initEnv (doRegister 80 5 5 0), insert 3 {0, 1, 2}⟩

theorem serverProcess_reached : serverProcess.Reached [.socket 3] :=
  ⟨_, {0, 1, 2}, .environment 80 5 5 0, .cons (.socket (by decide) (by decide)) .start⟩

end Server

end BandwidthLimiter
