import BandwidthLimiter.Limiter.Concurrent
import BandwidthLimiter.Limiter.Interleaving

namespace BandwidthLimiter
open Foundation

section Time

/-- The clock behind a reading or a sleep. -/
def Timing.after (clock : Int) : Timing → Int
  | .reading now => now.nanos
  | .sleep request => clock + request.nanos

/-- The readings do not go back, and a sleep takes the time of its request. -/
def Timely : Int → List Timing → Prop
  | _, [] => True
  | clock, .reading now :: rest => clock ≤ now.nanos ∧ Timely now.nanos rest
  | clock, .sleep request :: rest => Timely (clock + request.nanos) rest

theorem timely_append {clock : Int} {front back : List Timing} : Timely clock (front ++ back) ↔
    Timely clock front ∧ Timely (front.foldl Timing.after clock) back := by
  induction front generalizing clock with
  | nil => simp [Timely]
  | cons timing front ih =>
      cases timing with
      | reading now => simp [Timely, Timing.after, ih, and_assoc]
      | sleep request => simp [Timely, Timing.after, ih]

/-- The times of the exchanges of several threads. -/
def timesOf {T : Type} (asks : List (T × Exchange Request Request.Answer)) : List Timing :=
  asks.filterMap fun ask => timing ask.2

theorem timesOf_append {T : Type} {front back : List (T × Exchange Request Request.Answer)} :
    timesOf (front ++ back) = timesOf front ++ timesOf back := List.filterMap_append

theorem timesOf_section {T : Type} {thread : T} {exchanges : Exchanges} :
    timesOf (exchanges.map (thread, ·)) = timings exchanges := List.filterMap_map

/-- Only private exchanges have times. -/
theorem timesOf_private {T : Type} (asks : List (T × Exchange Request Request.Answer)) :
    timesOf (asks.filter (private' ·.2 == true)) = timesOf asks := by
  induction asks with
  | nil => rfl
  | cons ask asks ih =>
      obtain ⟨thread, ⟨request, answer⟩⟩ := ask
      cases request <;> simp [timesOf, private', timing] at ih ⊢ <;> exact ih

theorem timesOf_same {T : Type} {first second : List (T × Exchange Request Request.Answer)}
    (same : SameAsks private' first second) : timesOf first = timesOf second := by
  rw [← timesOf_private first, same true, timesOf_private]

/-- A function of the clock takes place at a time between the clock before and behind it. -/
theorem Reads.timely {exchanges : Exchanges} {now : Timespec} {sleepUntil : Option Timespec}
    {holds : Timespec → Prop} {clock : Int} (reads : Reads exchanges now sleepUntil holds)
    (timely : Timely clock (timings exchanges)) : ∃ time, holds time ∧ clock ≤ time.nanos ∧
      time.nanos + (sleepUntil.map Timespec.nanos).getD 0 ≤
        (timings exchanges).foldl Timing.after clock := by
  cases reads with
  | read times done =>
      rw [times] at timely ⊢
      refine ⟨now, done, timely.1, ?_⟩
      cases sleepUntil <;> simp [Timing.after]
  | unread times sleepless done =>
      rw [times, sleepless]
      exact ⟨⟨0, clock⟩, done _, by simp [Timespec.nanos], by simp [Timespec.nanos]⟩

end Time

section Charges

/-- The controller behind a section. -/
def Section.next (contStr : ControllerStruct) : Section → ControllerStruct
  | .bind fd addr => BandwidthLimiter.bind contStr fd addr
  | .connect fd addr => BandwidthLimiter.connect contStr fd addr
  | .accept fd acpFd => BandwidthLimiter.accept contStr fd acpFd
  | .close fd => (BandwidthLimiter.close contStr fd).toOption.getD contStr
  | .dup oldFd newFd => BandwidthLimiter.dup contStr oldFd newFd
  | .dup2 oldFd newFd returnVal => BandwidthLimiter.dup2 contStr oldFd newFd returnVal
  | .enter flag fd count now _ =>
      ((BandwidthLimiter.enter contStr flag fd count now).toOption.map Prod.fst).getD contStr
  | .leave flag fd moved now => (BandwidthLimiter.leave contStr flag fd moved now).toOption.getD contStr

/-- The charge of a section on the port in the direction, with its time. -/
def Section.charge (flag : Bool) (port : UInt32) (contStr : ControllerStruct) :
    Section → Option (Int × Int)
  | .leave direction fd moved now =>
      match getDestPort contStr.socStr fd with
      | .ok (some dest) =>
          if direction = flag ∧ dest = port ∧ 0 < moved then some (now.nanos, moved) else none
      | _ => none
  | _ => none

/-- The charges of sections in their order. -/
def sectionCharges (flag : Bool) (port : UInt32) : ControllerStruct → List Section → List (Int × Int)
  | _, [] => []
  | contStr, event :: rest =>
      (event.charge flag port contStr).toList ++ sectionCharges flag port (event.next contStr) rest

variable {flag : Bool} {port : UInt32} {first contStr next : ControllerStruct} {event : Section}
  {sections : List Section}

theorem SectionStep.next_eq (taken : SectionStep contStr event next) : event.next contStr = next := by
  cases taken with
  | close done | enter done | leave done => simp [Section.next, done, Except.toOption]
  | _ => rfl

theorem sectionCharges_snoc (first : ControllerStruct) (sections : List Section) (event : Section) :
    sectionCharges flag port first (sections ++ [event]) = sectionCharges flag port first sections ++
      (event.charge flag port (sections.foldl Section.next first)).toList := by
  induction sections generalizing first with
  | nil => simp [sectionCharges]
  | cons other sections ih => simp [sectionCharges, ih]

theorem SectionStep.snoc (taken : SectionStep contStr event next)
    (reached : sections.foldl Section.next first = contStr) :
    (sections ++ [event]).foldl Section.next first = next := by
  rw [List.foldl_append, reached]
  exact taken.next_eq

/-- A charge on a port with an entry reads the clock. -/
theorem leave_reads {fd moved : Int} {exchanges : Exchanges} {now : Timespec} {data : PortStruct}
    (dest : getDestPort contStr.socStr fd = .ok (some port))
    (found : contStr.regEnvStr.get port = some data) (positive : 0 < moved)
    (reads : Reads exchanges now none fun now => SectionStep contStr (.leave flag fd moved now) next) :
    timings exchanges = [.reading now] := by
  cases reads with
  | read times _ => exact times
  | unread _ _ done =>
      -- Two times would leave two entries.
      have stored (time : Timespec) : next.regEnvStr.get port = some (data.closed flag moved time) := by
        cases done time with
        | leave left =>
            obtain ⟨other, run, -, ports⟩ := leave_spec dest found flag positive time
            obtain rfl := Except.ok.inj (left.symm.trans run)
            exact (ports port).trans (if_pos rfl)
      have same := Option.some.inj ((stored ⟨0, 0⟩).symm.trans (stored ⟨1, 0⟩))
      have times := congrArg (PortStruct.startTime · flag) same
      simp at times

end Charges

theorem TimedSection.quiet {contStr next : ControllerStruct} {event : Section} {exchanges : Exchanges}
    (timed : TimedSection contStr event exchanges next) (other : event.transfers = false) :
    timings exchanges = [] := by
  cases event with
  | enter | leave => cases other
  | _ => exact timed.2

section Calls

/-- The grant of a data call on the port in the direction. -/
def Transfer.grantOn (flag : Bool) (port : UInt32) (registry : Registry Int UInt32) (call : Transfer) :
    Option Int :=
  if registry.dest call.fd = some port ∧ call.flag = flag then some call.grant.demand else none

/-- The grants of the threads on the port in the direction. -/
def grantsOn {T : Type} (flag : Bool) (port : UInt32) (registry : Registry Int UInt32)
    (calls : T → Option Transfer) (thread : T) : Option Int :=
  (calls thread).bind (Transfer.grantOn flag port registry)

/-- A data call under way has a connection, and on the port in the direction it moves no more than its
grant. -/
structure Transfer.Sound (flag : Bool) (port : UInt32) (registry : Registry Int UInt32)
    (call : Transfer) : Prop where
  named : ∃ dest, registry.dest call.fd = some dest
  nonneg : registry.dest call.fd = some port → call.flag = flag → 0 ≤ call.grant.demand
  fits : registry.dest call.fd = some port → call.flag = flag → call.grant.demand < 2 ^ 63
  covered : registry.dest call.fd = some port → call.flag = flag →
    ∀ moved, call.moved = some moved → moved ≤ call.grant.demand

variable {T : Type} [DecidableEq T] {flag : Bool} {port : UInt32} {registry later : Registry Int UInt32}
  {calls : T → Option Transfer} {thread : T} {call : Option Transfer}

theorem grantsOn_update : grantsOn flag port registry (Function.update calls thread call) =
    Function.update (grantsOn flag port registry calls) thread
      (call.bind (Transfer.grantOn flag port registry)) := by
  funext other
  by_cases same : other = thread
  · subst same
    simp [grantsOn]
  · simp [grantsOn, same]

omit [DecidableEq T] in
/-- The grants depend on the ports of the data calls only. -/
theorem grantsOn_congr (same : ∀ thread call, calls thread = some call →
    later.dest call.fd = registry.dest call.fd) :
    grantsOn flag port later calls = grantsOn flag port registry calls := by
  funext thread
  cases held : calls thread with
  | none => simp [grantsOn, held]
  | some call => simp [grantsOn, held, Transfer.grantOn, same thread call held]

theorem sound_update (sound : ∀ other call, calls other = some call → call.Sound flag port registry)
    (new : ∀ transfer, call = some transfer → transfer.Sound flag port registry) :
    ∀ other transfer, Function.update calls thread call other = some transfer →
      transfer.Sound flag port registry := by
  intro other transfer held
  by_cases same : other = thread
  · subst same
    exact new transfer (by simpa using held)
  · exact sound other transfer (by simpa [same] using held)

end Calls

/-- The entry of the port follows the meter of the sections so far and of the grants under way. -/
structure Accounted {T : Type} [Fintype T] (flag : Bool) (port : UInt32) (limit : Int)
    (first contStr : ControllerStruct) (sections : List Section) (calls : T → Option Transfer)
    (clock : Int) (registry : Registry Int UInt32) (data : PortStruct) : Prop where
  reached : sections.foldl Section.next first = contStr
  denotes : Denotes contStr registry
  found : contStr.regEnvStr.get port = some data
  same : data.limit flag = limit
  sound : ∀ thread call, calls thread = some call → call.Sound flag port registry
  team : Team nanoMult limit (data.remaining flag) (grantsOn flag port registry calls)
    (data.startTime flag).nanos clock (sectionCharges flag port first sections)

namespace Accounted

variable {T : Type} [Fintype T] [DecidableEq T] {flag direction : Bool} {port : UInt32} {limit : Int}
  {first contStr next : ControllerStruct} {sections : List Section} {calls : T → Option Transfer}
  {clock : Int} {registry : Registry Int UInt32} {data : PortStruct} {thread : T} {event : Section}
  {exchanges : Exchanges}

/-- The data call of a thread ends without a charge. -/
theorem drop (accounted : Accounted flag port limit first contStr sections calls clock registry data)
    (thread : T) : Accounted flag port limit first contStr sections (Function.update calls thread none)
      clock registry data where
  reached := accounted.reached
  denotes := accounted.denotes
  found := accounted.found
  same := accounted.same
  sound := sound_update accounted.sound nofun
  team := by
    rw [grantsOn_update]
    exact accounted.team.release thread

/-- The answer of libc leaves the grants. -/
theorem answer (accounted : Accounted flag port limit first contStr sections calls clock registry data)
    {call : Transfer} (held : calls thread = some call) {moved : Int}
    (bounded : moved ≤ sizeT call.grant.demand) :
    Accounted flag port limit first contStr sections
      (Function.update calls thread (some { call with moved := some moved })) clock registry data where
  reached := accounted.reached
  denotes := accounted.denotes
  found := accounted.found
  same := accounted.same
  sound := by
    apply sound_update accounted.sound
    intro transfer same
    obtain rfl := Option.some.inj same
    have old := accounted.sound thread call held
    refine ⟨old.named, old.nonneg, old.fits, fun dest direction amount moves => ?_⟩
    obtain rfl := Option.some.inj moves
    have nonneg := old.nonneg dest direction
    have fits := old.fits dest direction
    rw [sizeT_of_nonneg nonneg (by omega), Int.toNat_of_nonneg nonneg] at bounded
    exact bounded
  team := by
    have own : (some { call with moved := some moved }).bind (Transfer.grantOn flag port registry) =
        grantsOn flag port registry calls thread := by simp [grantsOn, held, Transfer.grantOn]
    rw [grantsOn_update, own, Function.update_eq_self]
    exact accounted.team

omit [DecidableEq T] in
/-- A socket call without a duplicate keeps the ports of the data calls under way. -/
theorem socketCall (accounted : Accounted flag port limit first contStr sections calls clock registry data)
    (taken : SectionStep contStr event next) (other : event.transfers = false)
    (single : event.duplicates = false)
    (spared : ∀ fd, event = .close fd → ∀ thread call, calls thread = some call → call.fd ≠ fd) :
    Accounted flag port limit first next (sections ++ [event]) calls clock
      (event.apply contStr.regEnvStr registry) data := by
  obtain ⟨reached, denotes, found, same, sound, team⟩ := accounted
  have kept (thread : T) (call : Transfer) (held : calls thread = some call) :
      (event.apply contStr.regEnvStr registry).dest call.fd = registry.dest call.fd := by
    obtain ⟨dest, named⟩ := (sound thread call held).named
    rw [named]
    exact Section.dest_apply named fun fd closes =>
      Ne.symm (spared fd closes thread call held)
  have silent : event.charge flag port contStr = none := by
    cases event <;> first | rfl | cases other
  refine ⟨taken.snoc reached, denotes.step taken single, by rwa [taken.env_eq other], same,
    fun thread call held => ?_, ?_⟩
  · have old := sound thread call held
    have dest := kept thread call held
    exact ⟨by rw [dest]; exact old.named, by rw [dest]; exact old.nonneg,
      by rw [dest]; exact old.fits, by rw [dest]; exact old.covered⟩
  · rw [sectionCharges_snoc, reached, silent, grantsOn_congr kept]
    simpa using team

omit [DecidableEq T] in
/-- A section of a data call keeps the registry. -/
theorem denotes_next
    (accounted : Accounted flag port limit first contStr sections calls clock registry data)
    (taken : SectionStep contStr event next) (transfers : event.transfers = true) :
    Denotes next registry := by
  cases event with
  | enter | leave => exact accounted.denotes.step taken rfl
  | _ => cases transfers

/-- A section of a data call on another port or in the other direction. -/
theorem pass (accounted : Accounted flag port limit first contStr sections calls clock registry data)
    (taken : SectionStep contStr event next) (transfers : event.transfers = true)
    (silent : event.charge flag port contStr = none) {after : PortStruct}
    (found : next.regEnvStr.get port = some after)
    (kept : after.limit flag = data.limit flag ∧ after.remaining flag = data.remaining flag ∧
      after.startTime flag = data.startTime flag) {later : Int} (passed : clock ≤ later)
    {call : Option Transfer} (sound : ∀ transfer, call = some transfer → transfer.Sound flag port registry)
    (apart : call.bind (Transfer.grantOn flag port registry) = none) :
    Accounted flag port limit first next (sections ++ [event]) (Function.update calls thread call) later
      registry after where
  reached := taken.snoc accounted.reached
  denotes := accounted.denotes_next taken transfers
  found := found
  same := kept.1.trans accounted.same
  sound := sound_update accounted.sound sound
  team := by
    rw [grantsOn_update, apart, sectionCharges_snoc, accounted.reached, silent, Option.toList_none,
      List.append_nil, kept.2.1, kept.2.2]
    exact (accounted.team.release thread).wait passed

/-- A `pre_op` on the port grants a part of the budget that it leaves, whatever grants are under way. -/
theorem admits (accounted : Accounted flag port limit first contStr sections calls clock registry data)
    (limited : 0 < limit) {fd : Int} {count : Nat} {now time : Timespec} {grant : Grant} {later : Int}
    (free : calls thread = none) (fits : count < 2 ^ 63)
    (dest : getDestPort contStr.socStr fd = .ok (some port))
    (taken : SectionStep contStr (.enter flag fd count now grant) next)
    (done : BandwidthLimiter.enter contStr flag fd count time = .ok (next, grant))
    (started : clock ≤ time.nanos) (slept : time.nanos + grant.slept ≤ later) :
    Accounted flag port limit first next (sections ++ [.enter flag fd count now grant])
      (Function.update calls thread (some ⟨fd, flag, count, grant, none⟩)) later registry
      (data.opened flag time) := by
  obtain ⟨other, run, sockets, ports⟩ := preOp_spec dest accounted.found (ssizeT count) flag time
  obtain ⟨rfl, granted⟩ := Prod.mk.inj (Except.ok.inj (done.symm.trans run))
  have named := Except.ok.inj ((accounted.denotes.destPort fd).symm.trans dest)
  have same := accounted.same
  subst same
  have opened := PortStruct.opened_crowd accounted.team started (granted ▸ slept)
  have offered := PortStruct.offer_eq_remaining limited.le time
  have demand : grant.demand = min (count : Int) (data.offer flag time) := by
    rw [granted, ssizeT_of_lt fits]
  have nonneg : 0 ≤ grant.demand := demand ▸ le_min (by omega) (offered ▸ opened.nonneg)
  have fitting : grant.demand < 2 ^ 63 := by
    have least := min_le_left (count : Int) (data.offer flag time)
    omega
  have small : grant.demand ≤ (data.opened flag time).remaining flag := by
    rw [demand, ← offered]
    exact min_le_right _ _
  refine ⟨taken.snoc accounted.reached, accounted.denotes_next taken rfl,
    (ports port).trans (if_pos rfl), by simp, sound_update accounted.sound ?_, ?_⟩
  · intro transfer same
    obtain rfl := Option.some.inj same
    exact ⟨⟨port, named⟩, fun _ _ => nonneg, fun _ _ => fitting, fun _ _ => nofun⟩
  · have own : (some ⟨fd, flag, count, grant, none⟩ : Option Transfer).bind
        (Transfer.grantOn flag port registry) = some grant.demand := by
      simp [Transfer.grantOn, named]
    have unheld : grantsOn flag port registry calls thread = none := by simp [grantsOn, free]
    rw [grantsOn_update, own, sectionCharges_snoc, accounted.reached]
    simpa [Section.charge] using Team.admitted opened unheld small

/-- A `pre_op` on any port, with the sleep between the clock before and behind it. -/
theorem enter (accounted : Accounted flag port limit first contStr sections calls clock registry data)
    (limited : 0 < limit) {fd : Int} {count : Nat} {now : Timespec} {grant : Grant}
    (free : calls thread = none) (fits : count < 2 ^ 63)
    (reads : Reads exchanges now grant.sleepUntil fun now =>
      SectionStep contStr (.enter direction fd count now grant) next)
    (timely : Timely clock (timings exchanges)) :
    ∃ data, Accounted flag port limit first next (sections ++ [.enter direction fd count now grant])
      (Function.update calls thread
        (if grant.active then some ⟨fd, direction, count, grant, none⟩ else none))
      ((timings exchanges).foldl Timing.after clock) registry data := by
  have taken := reads.done
  obtain ⟨time, entered, started, slept⟩ := reads.timely timely
  cases entered with
  | enter done =>
      by_cases present : isAcpSockFdPresent contStr.socStr fd = true
      · obtain ⟨dest, entry, named, held⟩ := accounted.denotes.entry present
        obtain ⟨other, run, sockets, ports⟩ := preOp_spec named held (ssizeT count) direction time
        obtain ⟨rfl, granted⟩ := Prod.mk.inj (Except.ok.inj (done.symm.trans run))
        have passed := (PortStruct.opened_due started (granted ▸ slept)).1
        have active : grant.active = true := by rw [granted]
        rw [if_pos active]
        by_cases own : dest = port ∧ direction = flag
        · obtain ⟨rfl, rfl⟩ := own
          exact ⟨_, accounted.admits limited free fits named taken done started slept⟩
        · have reached := Except.ok.inj ((accounted.denotes.destPort fd).symm.trans named)
          have apart : ¬(registry.dest fd = some port ∧ direction = flag) := fun both =>
            own ⟨Option.some.inj (reached.symm.trans both.1), both.2⟩
          have sound (transfer : Transfer) (same : some ⟨fd, direction, count, grant, none⟩ = some transfer) :
              transfer.Sound flag port registry := by
            obtain rfl := Option.some.inj same
            exact ⟨⟨dest, reached⟩, fun port flag => absurd ⟨port, flag⟩ apart,
              fun port flag => absurd ⟨port, flag⟩ apart, fun port flag => absurd ⟨port, flag⟩ apart⟩
          have ungranted : (some ⟨fd, direction, count, grant, none⟩ : Option Transfer).bind
              (Transfer.grantOn flag port registry) = none := if_neg apart
          by_cases equal : dest = port
          · subst equal
            obtain rfl := Option.some.inj (held.symm.trans accounted.found)
            have different : flag ≠ direction := fun same => own ⟨rfl, same.symm⟩
            exact ⟨_, accounted.pass taken rfl rfl ((ports dest).trans (if_pos rfl))
              ⟨by simp, PortStruct.remaining_opened_of_ne different, by simp⟩ passed sound ungranted⟩
          · have found := (ports port).trans ((if_neg (Ne.symm equal)).trans accounted.found)
            exact ⟨data, accounted.pass taken rfl rfl found ⟨rfl, rfl, rfl⟩ passed sound ungranted⟩
      · have idle : BandwidthLimiter.enter contStr direction fd count time =
            .ok (contStr, ⟨false, ssizeT count, none⟩) := by
          simp [BandwidthLimiter.enter, preOp, present]
        obtain ⟨rfl, rfl⟩ := Prod.mk.inj (Except.ok.inj (done.symm.trans idle))
        have passed := started.trans (le_of_add_le_of_nonneg_left slept le_rfl)
        have sound (transfer : Transfer) (same : none = some transfer) :
            transfer.Sound flag port registry := by cases same
        exact ⟨data, accounted.pass taken rfl rfl accounted.found ⟨rfl, rfl, rfl⟩ passed sound rfl⟩

/-- A charge on the port takes the moved bytes from the grant of the data call. -/
theorem charge (accounted : Accounted flag port limit first contStr sections calls clock registry data)
    {call : Transfer} (held : calls thread = some call) {moved : Int} (result : call.moved = some moved)
    (positive : 0 < moved) {now : Timespec} (dest : registry.dest call.fd = some port)
    (direction : call.flag = flag)
    (taken : SectionStep contStr (.leave call.flag call.fd moved now) next) (started : clock ≤ now.nanos) :
    Accounted flag port limit first next (sections ++ [.leave call.flag call.fd moved now])
      (Function.update calls thread none) now.nanos registry (data.closed flag moved now) := by
  subst direction
  have old := accounted.sound thread call held
  have named := (accounted.denotes.destPort call.fd).trans (congrArg Except.ok dest)
  have ports : next.regEnvStr.get port = some (data.closed call.flag moved now) := by
    cases taken with
    | leave done =>
        obtain ⟨other, run, -, ports⟩ := leave_spec named accounted.found call.flag positive now
        obtain rfl := Except.ok.inj (done.symm.trans run)
        exact (ports port).trans (if_pos rfl)
  have granted : grantsOn call.flag port registry calls thread = some call.grant.demand := by
    simp [grantsOn, held, Transfer.grantOn, dest]
  refine ⟨taken.snoc accounted.reached, accounted.denotes_next taken rfl, ports, by simp [accounted.same],
    sound_update accounted.sound nofun, ?_⟩
  have charged := accounted.team.charge granted started positive.le (old.covered dest rfl moved result)
  rw [grantsOn_update, sectionCharges_snoc, accounted.reached]
  simpa [Section.charge, named, positive, PortStruct.remaining_closed] using charged

/-- The second section of a data call on any port. -/
theorem leave (accounted : Accounted flag port limit first contStr sections calls clock registry data)
    {call : Transfer} (held : calls thread = some call) {moved : Int} (result : call.moved = some moved)
    {now : Timespec} (reads : Reads exchanges now none fun now =>
      SectionStep contStr (.leave call.flag call.fd moved now) next)
    (timely : Timely clock (timings exchanges)) :
    ∃ data, Accounted flag port limit first next (sections ++ [.leave call.flag call.fd moved now])
      (Function.update calls thread none) ((timings exchanges).foldl Timing.after clock) registry data := by
  have taken := reads.done
  have done : BandwidthLimiter.leave contStr call.flag call.fd moved now = .ok next := by
    cases taken with
    | leave done => exact done
  obtain ⟨dest, reached⟩ := (accounted.sound thread call held).named
  have named := (accounted.denotes.destPort call.fd).trans (congrArg Except.ok reached)
  obtain ⟨time, -, started, stayed⟩ := reads.timely timely
  have passed := started.trans (le_of_add_le_of_nonneg_left stayed le_rfl)
  by_cases positive : 0 < moved
  · obtain ⟨root, -, value⟩ := Registry.dest_eq_some.mp reached
    obtain ⟨entry, entered⟩ := Option.isSome_iff_exists.mp (accounted.denotes.served root dest value)
    by_cases own : dest = port ∧ call.flag = flag
    · obtain ⟨rfl, direction⟩ := own
      rw [leave_reads named entered positive reads] at timely ⊢
      exact ⟨_, accounted.charge held result positive reached direction taken timely.1⟩
    · obtain ⟨other, run, -, ports⟩ := leave_spec named entered call.flag positive now
      obtain rfl := Except.ok.inj (done.symm.trans run)
      have silent : (Section.leave call.flag call.fd moved now).charge flag port contStr = none := by
        simp only [Section.charge, named]
        rw [if_neg fun all => own ⟨all.2.1, all.1⟩]
      by_cases equal : dest = port
      · subst equal
        obtain rfl := Option.some.inj (entered.symm.trans accounted.found)
        have different : flag ≠ call.flag := fun same => own ⟨rfl, same.symm⟩
        have left : (entry.closed call.flag moved now).remaining flag = entry.remaining flag := by
          rw [PortStruct.remaining_closed, if_neg different, max_eq_right accounted.team.nonneg]
        exact ⟨_, accounted.pass taken rfl silent ((ports dest).trans (if_pos rfl))
          ⟨by simp, left, by simp [different]⟩ passed nofun rfl⟩
      · have found := (ports port).trans ((if_neg (Ne.symm equal)).trans accounted.found)
        exact ⟨data, accounted.pass taken rfl silent found ⟨rfl, rfl, rfl⟩ passed nofun rfl⟩
  · have silent : (Section.leave call.flag call.fd moved now).charge flag port contStr = none := by
      simp [Section.charge, named, positive]
    obtain rfl := Except.ok.inj (done.symm.trans (leave_idle (Int.not_lt.mp positive) call.flag now))
    exact ⟨data, accounted.pass taken rfl silent accounted.found ⟨rfl, rfl, rfl⟩ passed nofun rfl⟩

/-- A locked section of any thread. -/
theorem locked (accounted : Accounted flag port limit first contStr sections calls clock registry data)
    (limited : 0 < limit) {call : Option Transfer}
    (timed : TimedSection contStr event exchanges next)
    (step : TransferStep (calls thread) (some event) call) (single : event.duplicates = false)
    (fits : ∀ flag fd count now grant, event = .enter flag fd count now grant → count < 2 ^ 63)
    (spared : ∀ fd, event = .close fd → ∀ thread call, calls thread = some call → call.fd ≠ fd)
    (timely : Timely clock (timings exchanges)) :
    ∃ registry data, Accounted flag port limit first next (sections ++ [event])
      (Function.update calls thread call) ((timings exchanges).foldl Timing.after clock) registry data := by
  generalize held : calls thread = before at step
  cases step with
  | enter => exact ⟨registry, accounted.enter limited held (fits _ _ _ _ _ rfl) timed timely⟩
  | leave result => exact ⟨registry, accounted.leave held result timed timely⟩
  | other other =>
      rw [timed.quiet other]
      exact ⟨_, data, (accounted.socketCall timed.taken other single spared).drop thread⟩

end Accounted

end BandwidthLimiter
