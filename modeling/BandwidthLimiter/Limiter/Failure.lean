import BandwidthLimiter.Limiter.Section

namespace BandwidthLimiter
open Foundation

/-- A `bind` or `connect` call with its libc result; both wrappers run their locked section first. -/
inductive NamingCall where
  | bind (fd : Int) (addr : Sockaddr) (returnVal : Int)
  | connect (fd : Int) (addr : Sockaddr) (returnVal : Int)
  deriving DecidableEq, Repr

namespace NamingCall

def fd : NamingCall → Int
  | .bind fd _ _ => fd
  | .connect fd _ _ => fd

def addr : NamingCall → Sockaddr
  | .bind _ addr _ => addr
  | .connect _ addr _ => addr

/-- The whole wrapper with its result; the libc call leaves the controller alone. -/
def perform (contStr : ControllerStruct) : NamingCall → ControllerStruct × Int
  | .bind fd addr returnVal => (BandwidthLimiter.bind contStr fd addr, returnVal)
  | .connect fd addr returnVal => (BandwidthLimiter.connect contStr fd addr, returnVal)

def fails (call : NamingCall) : Bool :=
  match call with
  | .bind _ _ returnVal => returnVal = -1
  | .connect _ _ returnVal => returnVal = -1

end NamingCall

/-- Both trees hold the same entries with their ports and counters. -/
def SameEntries (first second : SockStruct) : Prop :=
  first.sockRb.entries.Perm second.sockRb.entries ∧
    first.acpSocketRb.entries.Perm second.acpSocketRb.entries

namespace NamingCall

/-- The entries are the same after the call, and every next call on the descriptor leads to the same
entries as without the call. -/
structure LeavesEntries (contStr : ControllerStruct) (call : NamingCall) : Prop where
  same : SameEntries (call.perform contStr).1.socStr contStr.socStr
  retry : ∀ next : NamingCall, next.fd = call.fd →
    SameEntries (next.perform (call.perform contStr).1).1.socStr (next.perform contStr).1.socStr

/-- The port is not registered, or the descriptor is a root socket already. -/
def Ignored (contStr : ControllerStruct) (call : NamingCall) : Prop :=
  isPortRegistered contStr.regEnvStr call.addr.port = false ∨
    contStr.socStr.sockRb.get call.fd ≠ none

end NamingCall

inductive WrapperEvent where
  | naming (call : NamingCall)
  | other (event : Section)

/-- The event is a `bind` or `connect` that fails in libc. -/
def WrapperEvent.fails : WrapperEvent → Bool
  | .naming call => call.fails
  | .other _ => false

def WrapperStep (contStr : ControllerStruct) (event : WrapperEvent) (next : ControllerStruct) :
    Prop :=
  match event with
  | .naming call => (call.perform contStr).1 = next
  | .other event => SectionStep contStr event next

/-- A failing call of this event is ignored. -/
def WrapperEvent.FailsIgnored (contStr : ControllerStruct) : WrapperEvent → Prop
  | .naming call => call.fails = true → call.Ignored contStr
  | .other _ => True

section Calls

variable {contStr : ControllerStruct} {fd : Int} {addr : Sockaddr} {call : NamingCall}

theorem SameEntries.refl (soS : SockStruct) : SameEntries soS soS := ⟨.refl _, .refl _⟩

/-- The same entries have the same keys. -/
theorem SameEntries.root_none {first second : SockStruct} (same : SameEntries first second)
    (absent : second.sockRb.get fd = none) : first.sockRb.get fd = none := by
  rw [RbTree.get_eq_none_iff_absent, (same.1.map Prod.fst).mem_iff]
  exact RbTree.get_eq_none_iff_absent.mp absent

theorem regisNewCreatedSocket_ignored {port : UInt32}
    (ignored : isPortRegistered contStr.regEnvStr port = false ∨
      contStr.socStr.sockRb.get fd ≠ none) :
    regisNewCreatedSocket contStr fd port = (contStr, false) := by
  unfold regisNewCreatedSocket
  rcases ignored with unregistered | known
  · rw [if_neg (by simp [unregistered])]
  · obtain ⟨root, present⟩ := Option.ne_none_iff_exists'.mp known
    rw [initSock_old present]
    split <;> rfl

/-- An ignored call changes nothing. -/
theorem NamingCall.Ignored.perform (ignored : call.Ignored contStr) :
    (call.perform contStr).1 = contStr := by
  cases call with
  | bind fd addr returnVal =>
      have refused : regisNewCreatedSocket contStr fd addr.port = (contStr, false) :=
        regisNewCreatedSocket_ignored ignored
      simp only [NamingCall.perform, BandwidthLimiter.bind, refused]
  | connect fd addr returnVal =>
      have refused : regisNewCreatedSocket contStr fd addr.port = (contStr, false) :=
        regisNewCreatedSocket_ignored ignored
      simp [NamingCall.perform, BandwidthLimiter.connect, refused]

/-- A new connection leaves the root sockets. -/
theorem registerSock_root {soS : SockStruct} {org new : Int} (known : soS.sockRb.get fd ≠ none) :
    (registerSock soS org new).1.sockRb.get fd ≠ none := by
  cases found : soS.sockRb.exactQuery org with
  | none => simpa [registerSock, found] using known
  | some node =>
      cases absent : soS.acpSocketRb.exactQuery new with
      | some other => simpa [registerSock, found, absent] using known
      | none =>
          simp only [registerSock, found, absent, RbTree.get_setInfo found]
          split
          · simp
          · exact known

/-- A registered port makes a new descriptor a root socket. -/
theorem regisNewCreatedSocket_new {port : UInt32}
    (registered : isPortRegistered contStr.regEnvStr port = true)
    (absent : contStr.socStr.sockRb.get fd = none) :
    (regisNewCreatedSocket contStr fd port).1.socStr.sockRb.get fd ≠ none := by
  rw [regisNewCreatedSocket, if_pos registered, initSock_new absent, Ne,
    RbTree.get_eq_none_iff_absent, ((RbTree.entries_insert ..).map Prod.fst).mem_iff]
  simp

theorem NamingCall.perform_root (noticed : ¬call.Ignored contStr) :
    (call.perform contStr).1.socStr.sockRb.get call.fd ≠ none := by
  unfold NamingCall.Ignored at noticed
  rw [not_or, Bool.not_eq_false, not_not] at noticed
  have known := regisNewCreatedSocket_new noticed.1 noticed.2
  cases call with
  | bind fd addr returnVal => exact known
  | connect fd addr returnVal =>
      simp only [NamingCall.perform, BandwidthLimiter.connect]
      split
      · exact registerSock_root known
      · exact known

/-- Only an ignored call keeps the entries. -/
theorem NamingCall.sameEntries_iff :
    SameEntries (call.perform contStr).1.socStr contStr.socStr ↔ call.Ignored contStr := by
  constructor
  · intro same
    by_contra noticed
    have known := call.perform_root noticed
    rw [NamingCall.Ignored, not_or, not_not] at noticed
    exact known (same.root_none noticed.2)
  · intro ignored
    rw [ignored.perform]
    exact .refl _

/-- A call leaves the entries exactly when it is ignored. -/
theorem NamingCall.leavesEntries_iff : call.LeavesEntries contStr ↔ call.Ignored contStr := by
  constructor
  · intro leaves
    exact sameEntries_iff.mp leaves.same
  · intro ignored
    refine ⟨sameEntries_iff.mpr ignored, fun next _ => ?_⟩
    rw [ignored.perform]
    exact .refl _

/-- Ignored calls can be left out of a run. -/
theorem wrapperRun_without {contStr last : ControllerStruct} {events : List WrapperEvent}
    {left : WrapperEvent → Bool} (calls : ∀ event, left (.other event) = false)
    (run : Run (fun contStr event next => WrapperStep contStr event next ∧
      ∀ call, event = .naming call → left event = true → call.Ignored contStr) contStr events last) :
    Run WrapperStep contStr (events.filter fun event => !left event) last := by
  refine run.history (fun events last =>
    Run WrapperStep contStr (events.filter fun event => !left event) last) .start ?_
  rintro events state event next before ⟨taken, ignored⟩
  rw [List.filter_append]
  cases out : left event with
  | false =>
      simp only [List.filter_cons, out, Bool.not_false, if_true, List.filter_nil]
      exact .step before taken
  | true =>
      cases event with
      | other event => cases (calls event).symm.trans out
      | naming call =>
          obtain rfl := (ignored call rfl out).perform.symm.trans taken
          simpa [out] using before

/-- A failing call leaves the entries, also for each retry, exactly when it is ignored; in a run
whose failing calls are all ignored, the failing calls can be left out. -/
theorem failedCall_leavesEntries_iff (contStr : ControllerStruct) :
    (∀ call : NamingCall, (call.fails = true → call.LeavesEntries contStr) ↔
      (call.fails = true → call.Ignored contStr)) ∧
    ∀ events last, Run (fun contStr event next => WrapperStep contStr event next ∧
        event.FailsIgnored contStr) contStr events last →
      Run WrapperStep contStr (events.filter fun event => !event.fails) last := by
  refine ⟨fun call => forall_congr' fun _ => NamingCall.leavesEntries_iff, fun events last run => ?_⟩
  refine wrapperRun_without (fun _ => rfl) (run.mono fun state event next taken => ⟨taken.1, ?_⟩)
  rintro call rfl failed
  exact taken.2 failed

end Calls

section Server

/-- The controller for the ports 80 and 443. -/
def twoPorts : ControllerStruct :=
  initEnv (doRegisterFromConfig [⟨80, 5, 5, 0⟩, ⟨443, 5, 5, 0⟩])

/-- A failing `bind` leaves its port for the descriptor. -/
theorem twoPorts_failedBind :
    ¬∀ (contStr : ControllerStruct) (call : NamingCall), Reachable contStr → call.fails = true →
      call.LeavesEntries contStr := by
  intro assumed
  have reachable : Reachable twoPorts := ⟨_, [], .config _, .start⟩
  have same := (assumed twoPorts (.bind 3 ⟨afInet, 0, 80⟩ (-1)) reachable (by decide)).same
  have absent : twoPorts.socStr.sockRb.get 3 = none := by decide
  exact absurd (same.root_none absent) (by decide)

end Server

end BandwidthLimiter
