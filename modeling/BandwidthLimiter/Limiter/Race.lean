import BandwidthLimiter.Limiter.Controller
import Mathlib.Data.List.DropRight

namespace BandwidthLimiter
open Foundation

/-- The controller, the open accepted descriptors with the listeners that accepted them, and the
calls between their libc step and their locked step. -/
structure Sockets where
  contStr : ControllerStruct
  origin : Int → Option Int
  closing : List Int
  accepting : List (Int × Int)

inductive SocketEvent where
  | libcClose (fd : Int)
  | unregister (fd : Int)
  | libcAccept (listener acpFd : Int)
  | register (listener acpFd : Int)
  deriving DecidableEq, Repr

namespace Sockets

/-- The open accepted descriptors at the start are the registered ones. -/
def start (contStr : ControllerStruct) : Sockets where
  contStr := contStr
  origin fd := (contStr.socStr.acpSocketRb.get fd).map AcpSocketFdStruct.rootFdNumber
  closing := []
  accepting := []

/-- The listeners are root sockets. -/
def Listening (listeners : List Int) (state : Sockets) : Prop :=
  ∀ listener ∈ listeners, state.contStr.socStr.sockRb.get listener ≠ none

instance (listeners : List Int) (state : Sockets) : Decidable (state.Listening listeners) :=
  inferInstanceAs (Decidable (∀ listener ∈ listeners,
    state.contStr.socStr.sockRb.get listener ≠ none))

/-- Every open accepted descriptor is registered with its listener, and no closed descriptor is
registered. -/
def Settled (state : Sockets) : Prop :=
  ∀ fd, (state.contStr.socStr.acpSocketRb.get fd).map AcpSocketFdStruct.rootFdNumber =
    state.origin fd

end Sockets

/-- The libc steps of one number: a close, or an accept by a listener. -/
def SocketEvent.libcStep (fd : Int) : SocketEvent → Option (Option Int)
  | .libcClose other => if other = fd then some none else none
  | .libcAccept listener other => if other = fd then some (some listener) else none
  | _ => none

/-- The locked steps of one number: a removal, or a registration with a listener. -/
def SocketEvent.lockedStep (fd : Int) : SocketEvent → Option (Option Int)
  | .unregister other => if other = fd then some none else none
  | .register listener other => if other = fd then some (some listener) else none
  | _ => none

def libcSteps (events : List SocketEvent) (fd : Int) : List (Option Int) :=
  events.filterMap (SocketEvent.libcStep fd)

def lockedSteps (events : List SocketEvent) (fd : Int) : List (Option Int) :=
  events.filterMap (SocketEvent.lockedStep fd)

/-- The listener of the first registration behind the last removal. -/
def standing (steps : List (Option Int)) : Option Int :=
  (steps.rtakeWhile Option.isSome).head?.join

/-- If the last libc step of the number is a close, its last locked step is a removal; if it is an
accept, the first registration behind the last removal is for the same listener. -/
def InOrder (events : List SocketEvent) (fd : Int) : Prop :=
  ∀ last, (libcSteps events fd).getLast? = some last → standing (lockedSteps events fd) = last

/-- One atomic step of a thread that closes a registered descriptor or accepts on a listener. The
kernel returns any number that is not open. -/
inductive SocketStep (listeners : List Int) : Sockets → SocketEvent → Sockets → Prop where
  | libcClose {state : Sockets} {fd : Int} (opened : state.origin fd ≠ none)
      (registered : isAcpSockFdPresent state.contStr.socStr fd = true) :
      SocketStep listeners state (.libcClose fd)
        { state with origin := Function.update state.origin fd none, closing := fd :: state.closing }
  | unregister {state : Sockets} {next : ControllerStruct} {fd : Int} {before after : List Int}
      (pending : state.closing = before ++ fd :: after) (done : close state.contStr fd = .ok next) :
      SocketStep listeners state (.unregister fd)
        { state with contStr := next, closing := before ++ after }
  | libcAccept {state : Sockets} {listener acpFd : Int} (listens : listener ∈ listeners)
      (proper : 0 ≤ acpFd) (free : state.origin acpFd = none) (other : acpFd ∉ listeners) :
      SocketStep listeners state (.libcAccept listener acpFd)
        { state with
          origin := Function.update state.origin acpFd (some listener)
          accepting := (listener, acpFd) :: state.accepting }
  | register {state : Sockets} {listener acpFd : Int} {before after : List (Int × Int)}
      (pending : state.accepting = before ++ (listener, acpFd) :: after) :
      SocketStep listeners state (.register listener acpFd)
        { state with
          contStr := accept state.contStr listener acpFd
          accepting := before ++ after }

/-- A step while all listeners are root sockets. -/
def RaceStep (listeners : List Int) (state : Sockets) (event : SocketEvent) (next : Sockets) :
    Prop := SocketStep listeners state event next ∧ state.Listening listeners

section Steps

variable {events : List SocketEvent} {event : SocketEvent} {fd listener : Int}
  {steps : List (Option Int)}

theorem libcSteps_snoc : libcSteps (events ++ [event]) fd =
    libcSteps events fd ++ (event.libcStep fd).toList := by
  rw [libcSteps, List.filterMap_append]
  cases step : event.libcStep fd <;> simp [libcSteps, step]

theorem lockedSteps_snoc : lockedSteps (events ++ [event]) fd =
    lockedSteps events fd ++ (event.lockedStep fd).toList := by
  rw [lockedSteps, List.filterMap_append]
  cases step : event.lockedStep fd <;> simp [lockedSteps, step]

@[simp] theorem standing_removal : standing (steps ++ [none]) = none := by
  simp [standing]

/-- A registration only counts behind a removal or at the start. -/
@[simp] theorem standing_registration :
    standing (steps ++ [some listener]) = some ((standing steps).getD listener) := by
  simp only [standing, List.rtakeWhile_concat, Option.isSome_some, if_true]
  cases kept : steps.rtakeWhile Option.isSome with
  | nil => rfl
  | cons first rest =>
      have present : first.isSome = true :=
        List.mem_rtakeWhile_imp (kept ▸ List.mem_cons_self)
      obtain ⟨root, rfl⟩ := Option.isSome_iff_exists.mp present
      rfl

end Steps

/-- The entry and the listener of one number follow its libc steps and its locked steps, up to the
calls between their two steps. -/
structure NumberTrace (start entry origin : Option Int) (libc locked : List (Option Int))
    (closing accepting : Nat) : Prop where
  opened : origin = libc.getLast?.getD start
  entered : entry = if none ∈ locked then standing locked else start.or (standing locked)
  closes : libc.count none = locked.count none + closing
  accepts : libc.countP Option.isSome = locked.countP Option.isSome + accepting
  untouched : start ≠ none → none ∉ libc → libc = []

namespace NumberTrace

variable {start entry origin : Option Int} {libc locked : List (Option Int)}
  {closing accepting : Nat} {listener : Int}

theorem libcClose (trace : NumberTrace start entry origin libc locked closing accepting) :
    NumberTrace start entry none (libc ++ [none]) locked (closing + 1) accepting where
  opened := by simp
  entered := trace.entered
  closes := by simp [trace.closes, Nat.add_assoc]
  accepts := by simp [trace.accepts]
  untouched _ kept := absurd (by simp) kept

theorem unregister (trace : NumberTrace start entry origin libc locked (closing + 1) accepting) :
    NumberTrace start none origin libc (locked ++ [none]) closing accepting where
  opened := trace.opened
  entered := by simp
  closes := by
    have before := trace.closes
    simp only [List.count_append, List.count_singleton_self]
    omega
  accepts := by simp [trace.accepts]
  untouched := trace.untouched

/-- An open number is not accepted again before a close. -/
theorem libcAccept (trace : NumberTrace start entry none libc locked closing accepting)
    (listener : Int) :
    NumberTrace start entry (some listener) (libc ++ [some listener]) locked closing (accepting + 1) where
  opened := by simp
  entered := trace.entered
  closes := by simp [trace.closes]
  accepts := by simp [trace.accepts, Nat.add_assoc]
  untouched opened kept := by
    have free := trace.opened
    rw [trace.untouched opened fun mem => kept (List.mem_append_left _ mem)] at free
    exact absurd free.symm opened

theorem register (trace : NumberTrace start entry origin libc locked closing (accepting + 1))
    (listener : Int) :
    NumberTrace start (some (entry.getD listener)) origin libc (locked ++ [some listener]) closing
      accepting where
  opened := trace.opened
  entered := by
    rw [trace.entered, standing_registration]
    by_cases removed : none ∈ locked
    · simp [removed]
    · cases start with
      | none => simp [removed]
      | some root => simp [removed]
  closes := by simp [trace.closes]
  accepts := by
    have before := trace.accepts
    simp only [List.countP_append, List.countP_singleton, Option.isSome_some, if_true]
    omega
  untouched := trace.untouched

/-- When no call is between its two steps, the entry names the listener exactly when the locked steps
are in the order of the libc steps. -/
theorem settled_iff (trace : NumberTrace start entry origin libc locked 0 0) :
    entry = origin ↔ ∀ last, libc.getLast? = some last → standing locked = last := by
  obtain ⟨opened, entered, closes, accepts, untouched⟩ := trace
  have removals : none ∈ locked ↔ none ∈ libc := by
    rw [← List.count_pos_iff, ← List.count_pos_iff]
    omega
  cases last : libc.getLast? with
  | none =>
      have noLibc := List.getLast?_eq_none_iff.mp last
      have noLocked : locked = [] := by
        have total := List.length_eq_countP_add_countP Option.isSome (l := locked)
        simp only [noLibc, List.countP_nil, List.count_nil] at accepts closes
        rw [List.count_eq_countP] at closes
        have others : locked.countP (fun step => ¬step.isSome = true) =
            locked.countP (· == none) := by
          congr 1
          funext step
          cases step <;> rfl
        rw [others] at total
        exact List.length_eq_zero_iff.mp (by omega)
      rw [opened, entered, noLibc, noLocked]
      simp [standing]
  | some step =>
      simp only [Option.some.injEq, forall_eq']
      rw [opened, last, entered]
      split
      · rfl
      · rename_i kept
        have fresh : start = none := by
          by_contra present
          rw [untouched present (removals.not.mp kept)] at last
          cases last
        simp [fresh]

end NumberTrace

/-- Every number has its trace since the start of the run. -/
structure Handover (listeners : List Int) (start : Int → Option Int) (events : List SocketEvent)
    (state : Sockets) (registry : Registry Int UInt32) : Prop where
  denotes : Denotes state.contStr registry
  proper : ∀ pair ∈ state.accepting, pair.1 ∈ listeners ∧ 0 ≤ pair.2
  trace : ∀ fd, NumberTrace (start fd) (registry.rootOf fd) (state.origin fd) (libcSteps events fd)
    (lockedSteps events fd) (state.closing.count fd) (state.accepting.countP (·.2 = fd))

namespace Handover

variable {listeners : List Int} {start : Int → Option Int} {events : List SocketEvent}
  {state next : Sockets} {event : SocketEvent} {registry : Registry Int UInt32}
  {contStr : ControllerStruct}

theorem initial (denotes : Denotes contStr registry) :
    Handover listeners (Sockets.start contStr).origin [] (.start contStr) registry := by
  refine ⟨denotes, nofun, fun fd => ?_⟩
  have same : (Sockets.start contStr).origin fd = registry.rootOf fd := denotes.rootOf_eq fd
  exact ⟨rfl, by simp [lockedSteps, standing, same], rfl, rfl, fun _ _ => rfl⟩

/-- A step of one number leaves the traces of the other numbers. -/
theorem other {fd : Int} (handover : Handover listeners start events state registry)
    (libc : event.libcStep fd = none) (locked : event.lockedStep fd = none)
    {entry origin : Option Int} {closing accepting : Nat} (sameEntry : entry = registry.rootOf fd)
    (sameOrigin : origin = state.origin fd) (sameClosing : closing = state.closing.count fd)
    (sameAccepting : accepting = state.accepting.countP (·.2 = fd)) :
    NumberTrace (start fd) entry origin (libcSteps (events ++ [event]) fd)
      (lockedSteps (events ++ [event]) fd) closing accepting := by
  subst sameEntry sameOrigin sameClosing sameAccepting
  have trace := handover.trace fd
  simpa [libcSteps_snoc, lockedSteps_snoc, libc, locked] using trace

theorem libcClose (handover : Handover listeners start events state registry) (fd : Int) :
    Handover listeners start (events ++ [.libcClose fd])
      { state with origin := Function.update state.origin fd none, closing := fd :: state.closing }
      registry := by
  refine ⟨handover.denotes, handover.proper, fun number => ?_⟩
  by_cases same : fd = number
  · subst same
    have trace := (handover.trace fd).libcClose
    simpa [libcSteps_snoc, lockedSteps_snoc, SocketEvent.libcStep, SocketEvent.lockedStep]
      using trace
  · exact handover.other (by simp [SocketEvent.libcStep, same]) rfl rfl
      (Function.update_of_ne (Ne.symm same) ..) (List.count_cons_of_ne same) rfl

theorem unregister (handover : Handover listeners start events state registry) {fd : Int}
    {later : ControllerStruct} {before after : List Int}
    (pending : state.closing = before ++ fd :: after) (done : close state.contStr fd = .ok later) :
    Handover listeners start (events ++ [.unregister fd])
      { state with contStr := later, closing := before ++ after } (registry.detach fd) := by
  refine ⟨handover.denotes.closed done, handover.proper, fun number => ?_⟩
  by_cases same : fd = number
  · subst same
    have trace := handover.trace fd
    have count : state.closing.count fd = (before ++ after).count fd + 1 := by
      simp [pending, Nat.add_assoc]
    rw [count] at trace
    simpa [libcSteps_snoc, lockedSteps_snoc, SocketEvent.libcStep, SocketEvent.lockedStep,
      Registry.rootOf_detach_self] using trace.unregister
  · exact handover.other rfl (by simp [SocketEvent.lockedStep, same])
      (Registry.rootOf_detach_of_ne (Ne.symm same)) rfl
      (by simp [pending, List.count_cons_of_ne same]) rfl

theorem libcAccept (handover : Handover listeners start events state registry)
    {listener acpFd : Int} (listens : listener ∈ listeners) (proper : 0 ≤ acpFd)
    (free : state.origin acpFd = none) :
    Handover listeners start (events ++ [.libcAccept listener acpFd])
      { state with
        origin := Function.update state.origin acpFd (some listener)
        accepting := (listener, acpFd) :: state.accepting } registry := by
  refine ⟨handover.denotes, fun pair mem => ?_, fun number => ?_⟩
  · rcases List.mem_cons.mp mem with rfl | old
    · exact ⟨listens, proper⟩
    · exact handover.proper pair old
  by_cases same : acpFd = number
  · subst same
    have trace := handover.trace acpFd
    rw [free] at trace
    simpa [libcSteps_snoc, lockedSteps_snoc, SocketEvent.libcStep, SocketEvent.lockedStep]
      using trace.libcAccept listener
  · exact handover.other (by simp [SocketEvent.libcStep, same]) rfl rfl
      (Function.update_of_ne (Ne.symm same) ..) rfl (List.countP_cons_of_neg (by simpa using same))

theorem register (handover : Handover listeners start events state registry)
    (listening : state.Listening listeners) {listener acpFd : Int}
    {before after : List (Int × Int)}
    (pending : state.accepting = before ++ (listener, acpFd) :: after) :
    Handover listeners start (events ++ [.register listener acpFd])
      { state with
        contStr := accept state.contStr listener acpFd
        accepting := before ++ after } (registry.attach listener acpFd) := by
  have mem : (listener, acpFd) ∈ state.accepting := by simp [pending]
  obtain ⟨listens, proper⟩ := handover.proper _ mem
  have known : registry.valueOf listener ≠ none :=
    listening listener listens ∘ handover.denotes.root_none_iff.mpr
  have attached : acceptedRegistry listener acpFd registry = registry.attach listener acpFd :=
    if_pos (show acpFd ≠ -1 by omega)
  refine ⟨attached ▸ handover.denotes.accept listener acpFd,
    fun pair inside => handover.proper pair ?_, fun number => ?_⟩
  · rw [pending]
    simp only [List.mem_append, List.mem_cons] at inside ⊢
    exact inside.imp_right .inr
  by_cases same : acpFd = number
  · subst same
    have trace := handover.trace acpFd
    have count : state.accepting.countP (·.2 = acpFd) =
        (before ++ after).countP (·.2 = acpFd) + 1 := by
      simp [pending, Nat.add_assoc]
    rw [count] at trace
    -- The registration meets the entry of the number, if there is one, and leaves it.
    have entry : (registry.attach listener acpFd).rootOf acpFd =
        some ((registry.rootOf acpFd).getD listener) := by
      cases old : registry.rootOf acpFd with
      | none => exact Registry.rootOf_attach_new old known
      | some root => exact Registry.rootOf_attach_of_some old
    rw [entry]
    simpa [libcSteps_snoc, lockedSteps_snoc, SocketEvent.libcStep, SocketEvent.lockedStep]
      using trace.register listener
  · exact handover.other rfl (by simp [SocketEvent.lockedStep, same])
      (Registry.rootOf_attach_of_ne (Ne.symm same)) rfl rfl (by simp [pending, same])

/-- Every step keeps the ledgers. -/
theorem step (handover : Handover listeners start events state registry)
    (taken : RaceStep listeners state event next) :
    ∃ later, Handover listeners start (events ++ [event]) next later := by
  obtain ⟨taken, listening⟩ := taken
  cases taken with
  | libcClose opened registered => exact ⟨_, handover.libcClose _⟩
  | unregister pending done => exact ⟨_, handover.unregister pending done⟩
  | libcAccept listens proper free other => exact ⟨_, handover.libcAccept listens proper free⟩
  | register pending => exact ⟨_, handover.register listening pending⟩

end Handover

/-- In every run of closes and accepts, once all calls have finished, every open accepted descriptor
is registered with its listener and no closed descriptor is registered, exactly when the locked steps
of every number are in the order of its libc steps. -/
theorem raceRun_settled_iff {listeners : List Int} {contStr : ControllerStruct}
    {events : List SocketEvent} {state : Sockets} (reachable : ReachableWithoutDup contStr)
    (run : Run (RaceStep listeners) (.start contStr) events state)
    (closing : state.closing = []) (accepting : state.accepting = []) :
    state.Settled ↔ ∀ fd, InOrder events fd := by
  obtain ⟨registry, denotes⟩ := reachable.denotes
  obtain ⟨later, handover⟩ := run.history
    (fun events state => ∃ registry,
      Handover listeners (Sockets.start contStr).origin events state registry)
    ⟨registry, .initial denotes⟩ fun _ _ _ _ ⟨_, handover⟩ taken => handover.step taken
  refine forall_congr' fun fd => ?_
  have trace := handover.trace fd
  rw [closing, accepting] at trace
  rw [handover.denotes.rootOf_eq fd]
  exact trace.settled_iff

section Server

/-- The state of the server after the accepts of 4 and 5. -/
def acceptedPair : Sockets where
  contStr := accept (accept serverSocket 3 4) 3 5
  origin := Function.update (Function.update (Sockets.start serverSocket).origin 4 (some 3)) 5 (some 3)
  closing := []
  accepting := []

set_option maxRecDepth 4000 in
theorem acceptedPair_run : Run (RaceStep [3]) (.start serverSocket)
    [.libcAccept 3 4, .register 3 4, .libcAccept 3 5, .register 3 5] acceptedPair :=
  .cons ⟨.libcAccept (by decide) (by decide) (by decide) (by decide), by decide⟩
    (.cons ⟨@SocketStep.register _ _ _ _ [] [] rfl, by decide⟩
      (.cons ⟨.libcAccept (by decide) (by decide) (by decide) (by decide), by decide⟩
        (.cons ⟨@SocketStep.register _ _ _ _ [] [] rfl, by decide⟩ .start)))

/-- The removal of 4 leaves the server socket to 5. -/
theorem acceptedPair_close : ∃ next registry, close acceptedPair.contStr 4 = .ok next ∧
    Denotes next registry ∧ next.socStr.sockRb.get 3 ≠ none := by
  obtain ⟨registry, denotes⟩ := serverSocket_reachable.denotes
  have known : registry.valueOf 3 ≠ none := denotes.root_none_iff.not.mp (by decide)
  have pair := (denotes.accept 3 4).accept 3 5
  have absent : registry.rootOf 5 = none := (denotes.rootOf_eq 5).symm.trans (by decide)
  have other : ((registry.attach 3 4).attach 3 5).rootOf 5 = some 3 :=
    Registry.rootOf_attach_new (by rw [Registry.rootOf_attach_of_ne (by decide), absent]) known
  obtain ⟨next, done, freed⟩ := pair.close 4
  refine ⟨next, _, done, freed, freed.root_none_iff.not.mpr ?_⟩
  rw [Registry.valueOf_detach_of_not_last]
  · exact known
  · exact fun last => absurd (last.2 5 other) (by decide)

/-- The number 4 is accepted again before its removal and registered behind it, while another thread
closes 5. -/
def reusedNumber : List SocketEvent :=
  [.libcAccept 3 4, .register 3 4, .libcAccept 3 5, .register 3 5] ++
    [.libcClose 4, .libcAccept 3 4, .libcClose 5, .unregister 4, .register 3 4, .unregister 5]

theorem reusedNumber_inOrder (fd : Int) : InOrder reusedNumber fd := by
  intro last named
  by_cases four : fd = 4
  · subst four
    have final : (libcSteps reusedNumber 4).getLast? = some (some 3) := rfl
    exact Option.some.inj (final.symm.trans named)
  · by_cases five : fd = 5
    · subst five
      have final : (libcSteps reusedNumber 5).getLast? = some none := rfl
      exact Option.some.inj (final.symm.trans named)
    · have untouched : libcSteps reusedNumber fd = [] := by
        simp [libcSteps, reusedNumber, SocketEvent.libcStep, Ne.symm four, Ne.symm five]
      rw [untouched] at named
      cases named

set_option maxRecDepth 4000 in
theorem reusedNumber_run : ∃ state, Run (RaceStep [3]) (.start serverSocket) reusedNumber state ∧
    state.closing = [] ∧ state.accepting = [] ∧ state.origin 4 = some 3 ∧ state.origin 5 = none := by
  obtain ⟨middle, registry, done, denotes, listening⟩ := acceptedPair_close
  obtain ⟨last, freed, -⟩ := (denotes.accept 3 4).close 5
  have kept : (acceptedRegistry 3 4 registry).valueOf 3 ≠ none :=
    denotes.root_none_iff.not.mp listening
  have root := (denotes.accept 3 4).root_none_iff.not.mpr kept
  exact ⟨_, acceptedPair_run.append
    (.cons ⟨@SocketStep.libcClose _ _ 4 (by decide) (by decide), by decide⟩
      (.cons ⟨@SocketStep.libcAccept _ _ 3 4 (by decide) (by decide) (by decide) (by decide),
          by decide⟩
        (.cons ⟨@SocketStep.libcClose _ _ 5 (by decide) (by decide), by decide⟩
          (.cons ⟨@SocketStep.unregister _ _ middle 4 [5] [] rfl done, by decide⟩
            (.cons ⟨@SocketStep.register _ _ 3 4 [] [] rfl, by simpa [Sockets.Listening]⟩
              (.cons ⟨@SocketStep.unregister _ _ last 5 [] [] rfl freed,
                by simpa [Sockets.Listening]⟩ .start)))))), rfl, rfl, rfl, rfl⟩

theorem reusedNumber_settled : ∃ state, Run (RaceStep [3]) (.start serverSocket) reusedNumber state ∧
    state.origin 4 = some 3 ∧ state.origin 5 = none ∧ state.Settled := by
  obtain ⟨state, run, closing, accepting, four, five⟩ := reusedNumber_run
  exact ⟨state, run, four, five,
    (raceRun_settled_iff serverSocket_reachable run closing accepting).mpr reusedNumber_inOrder⟩

set_option maxRecDepth 4000 in
/-- The registration of the reused number 4 meets the old entry, and the late removal then takes
this entry away. -/
theorem acceptedPair_lost :
    ¬∀ (contStr : ControllerStruct) (listeners : List Int) (events : List SocketEvent)
      (state : Sockets), ReachableWithoutDup contStr →
      Run (RaceStep listeners) (.start contStr) events state → state.closing = [] →
      state.accepting = [] → state.Settled := by
  intro assumed
  obtain ⟨registry, denotes⟩ := serverSocket_reachable.denotes
  have reused := ((denotes.accept 3 4).accept 3 5).accept 3 4
  obtain ⟨last, done, freed⟩ := reused.close 4
  have run : Run (RaceStep [3]) (.start serverSocket) _ _ :=
    acceptedPair_run.append (.cons ⟨@SocketStep.libcClose _ _ 4 (by decide) (by decide), by decide⟩
      (.cons ⟨@SocketStep.libcAccept _ _ 3 4 (by decide) (by decide) (by decide) (by decide),
          by decide⟩
        (.cons ⟨@SocketStep.register _ _ 3 4 [] [] rfl, by decide⟩
          (.cons ⟨@SocketStep.unregister _ _ last 4 [] [] rfl done, by decide⟩ .start))))
  have settled := assumed _ _ _ _ serverSocket_reachable run rfl rfl 4
  have lost := (freed.rootOf_eq 4).trans Registry.rootOf_detach_self
  exact absurd (show (none : Option Int) = some 3 from lost.symm.trans settled) nofun

end Server

end BandwidthLimiter
