import BandwidthLimiter.Limiter.Failure

namespace BandwidthLimiter
open Foundation

def afInet6 : UInt16 := 10

def afUnix : UInt16 := 1

/-- The address belongs to no IP family, so the bytes after its family are no port. -/
def Sockaddr.foreign (addr : Sockaddr) : Bool := addr.saFamily ≠ afInet && addr.saFamily ≠ afInet6

/-- The event names a socket with an address of no IP family. -/
def WrapperEvent.foreign : WrapperEvent → Bool
  | .naming call => call.addr.foreign
  | .other _ => false

/-- A foreign call of this event is ignored. -/
def WrapperEvent.ForeignIgnored (contStr : ControllerStruct) : WrapperEvent → Prop
  | .naming call => call.addr.foreign = true → call.Ignored contStr
  | .other _ => True

/-- A call with an address of no IP family keeps the trees exactly when its first two bytes are no
registered port or its descriptor is a root socket already; in a run whose foreign calls are all
ignored, the foreign calls can be left out. -/
theorem foreignCall_sameEntries_iff (contStr : ControllerStruct) :
    (∀ call : NamingCall, call.addr.foreign = true →
      (SameEntries (call.perform contStr).1.socStr contStr.socStr ↔ call.Ignored contStr)) ∧
    ∀ events last, Run (fun contStr event next => WrapperStep contStr event next ∧
        event.ForeignIgnored contStr) contStr events last →
      Run WrapperStep contStr (events.filter fun event => !event.foreign) last := by
  refine ⟨fun call _ => NamingCall.sameEntries_iff, fun events last run => ?_⟩
  refine wrapperRun_without (fun _ => rfl) (run.mono fun state event next taken => ⟨taken.1, ?_⟩)
  rintro call rfl foreign
  exact taken.2 foreign

section Local

/-- The controller for the port 12148, whose two bytes are the text `/t`. -/
def slashPort : ControllerStruct := initEnv (doRegister 12148 5 5 0)

/-- A local socket at a path that starts with `/t` is registered for this port. -/
theorem localSocket_registered :
    ¬∀ (contStr : ControllerStruct) (call : NamingCall), Reachable contStr →
      call.addr.foreign = true → SameEntries (call.perform contStr).1.socStr contStr.socStr := by
  intro assumed
  have reachable : Reachable slashPort := ⟨_, [], .environment 12148 5 5 0, .start⟩
  have same := assumed slashPort (.bind 3 ⟨afUnix, '/'.toUInt8, 't'.toUInt8⟩ 0) reachable
    (by decide)
  have absent : slashPort.socStr.sockRb.get 3 = none := by decide
  exact absurd (same.root_none absent) (by decide)

end Local

end BandwidthLimiter
