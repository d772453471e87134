import BandwidthLimiter.Limiter.Locking
import BandwidthLimiter.Limiter.Section

namespace BandwidthLimiter
open Foundation

/-- The clock readings and the sleeps among the exchanges. -/
inductive Timing where
  | reading (now : Timespec)
  | sleep (request : Timespec)
  deriving DecidableEq, Repr

abbrev Exchanges := List (Exchange Request Request.Answer)

def timing : Exchange Request Request.Answer → Option Timing
  | ⟨.clock, now⟩ => some (.reading now)
  | ⟨.nanosleep request, _⟩ => some (.sleep request)
  | _ => none

def timings (exchanges : Exchanges) : List Timing := exchanges.filterMap timing

/-- A function of the clock takes place at the reading of the exchanges and with their sleep; or they
have no time, and it takes place at every time without a sleep. -/
inductive Reads (exchanges : Exchanges) (now : Timespec) (sleepUntil : Option Timespec)
    (holds : Timespec → Prop) : Prop where
  | read (times : timings exchanges = .reading now :: (sleepUntil.map Timing.sleep).toList)
      (done : holds now)
  | unread (times : timings exchanges = []) (sleepless : sleepUntil = none) (done : ∀ now, holds now)

/-- A locked section with its exchanges: `pre_op` and `update_time` read the clock when they need it,
and no other section does. -/
def TimedSection (contStr : ControllerStruct) (event : Section) (exchanges : Exchanges)
    (next : ControllerStruct) : Prop :=
  match event with
  | .enter flag fd count now grant => Reads exchanges now grant.sleepUntil fun now =>
      SectionStep contStr (.enter flag fd count now grant) next
  | .leave flag fd moved now => Reads exchanges now none fun now =>
      SectionStep contStr (.leave flag fd moved now) next
  | event => SectionStep contStr event next ∧ timings exchanges = []

/-- A data call of a thread between its two sections. -/
structure Transfer where
  fd : Int
  flag : Bool
  count : Nat
  grant : Grant
  moved : Option Int
  deriving DecidableEq, Repr

/-- The data call of a thread before and after a section of it. -/
inductive TransferStep : Option Transfer → Option Section → Option Transfer → Prop where
  | enter {flag : Bool} {fd : Int} {count : Nat} {now : Timespec} {grant : Grant} :
      TransferStep none (some (.enter flag fd count now grant))
        (if grant.active then some ⟨fd, flag, count, grant, none⟩ else none)
  | leave {call : Transfer} {moved : Int} {now : Timespec} (result : call.moved = some moved) :
      TransferStep (some call) (some (.leave call.flag call.fd moved now)) none
  | idle {call : Transfer} {moved : Int} (result : call.moved = some moved) (none' : moved ≤ 0) :
      TransferStep (some call) none none
  | silent : TransferStep none none none
  | other {event : Section} (other : event.transfers = false) : TransferStep none (some event) none

/-- A section whose function ends the process on the controller. -/
inductive SectionStops (contStr : ControllerStruct) : Stop → Prop where
  | close {fd : Int} {stop : Stop} (failed : close contStr fd = .error stop) :
      SectionStops contStr stop
  | enter {flag : Bool} {fd : Int} {count : Nat} {now : Timespec} {stop : Stop}
      (failed : enter contStr flag fd count now = .error stop) : SectionStops contStr stop
  | leave {flag : Bool} {fd moved : Int} {now : Timespec} {stop : Stop}
      (failed : leave contStr flag fd moved now = .error stop) : SectionStops contStr stop

/-- The functions of the data wrappers. -/
def Symbol.transfers : Symbol → Bool
  | .read | .recv | .recvfrom | .write | .send | .sendto => true
  | _ => false

namespace Globals

/-- The start of the library is complete. -/
structure Started (globals : Globals) : Prop where
  init0 : globals.init0 = true
  init1 : globals.init1 = true
  controller : ∃ contStr, globals.insContStr = some contStr
  loaded : ∀ symbol, globals.libc symbol = true

/-- Outside the sections, the library waits for its start or has completed it. -/
def Valid (globals : Globals) : Prop := globals = .initial ∨ globals.Started

/-- The variables behind `INIT_ENV`; `first` is the controller of the start. -/
def opened (globals : Globals) (first : ControllerStruct) : Globals :=
  if !globals.init0 && !globals.init1 then ⟨true, true, some first, fun _ => true⟩ else globals

/-- A section of a wrapper starts the library first, and it takes one step or none. -/
def Effect (first : ControllerStruct) (globals : Globals) (event : Option Section)
    (exchanges : Exchanges) (later : Globals) : Prop :=
  match event with
  | none => timings exchanges = [] ∧ later = globals.opened first
  | some event => ∃ contStr next, (globals.opened first).insContStr = some contStr ∧
      TimedSection contStr event exchanges next ∧
      later = { globals.opened first with insContStr := some next }

/-- The access ends the process as the function of a whole section does, or the start is not complete. -/
def Ends (first : ControllerStruct) (base globals : Globals) (ending : Ending) : Prop :=
  ending ≠ .nullController ∧ (globals.init1 = true → ∃ contStr stop,
    (base.opened first).insContStr = some contStr ∧ ending = .stop stop ∧ SectionStops contStr stop)

/-- The request of a thread outside of its sections: libc through a loaded pointer, for a data call
with its descriptor and its demand. -/
def Outside (call : Option Transfer) (request : Request) (globals : Globals) : Prop :=
  match request with
  | .libc symbol arguments => globals.libc symbol = true ∧ ∀ transfer, call = some transfer →
      transfer.moved = none ∧ symbol.transfers = true ∧
        arguments = [transfer.fd, sizeT transfer.grant.demand]
  | _ => False

/-- The data call after a libc call. -/
def answered (call : Option Transfer) : Exchange Request Request.Answer → Option Transfer
  | ⟨.libc _ _, moved⟩ => call.map fun transfer => { transfer with moved := some moved }
  | _ => call

/-- What the wrappers agree on, for threads with allowed sections. No libc call is made under the lock;
a libc call outside uses a loaded pointer; and no access uses the controller before the start. -/
def contract (first : ControllerStruct) (Allowed : Section → Prop) :
    Contract Globals Ending (Option Section) Request (Option Transfer) Request.Answer where
  invariant := Valid
  effect globals call event exchanges later next := Effect first globals event exchanges later ∧
    (∀ taken, event = some taken → Allowed taken) ∧ TransferStep call event next
  keeps globals later := ∀ symbol, globals.libc symbol = true → later.libc symbol = true
  inside
    | .libc _ _ => False
    | _ => True
  outside := Outside
  answered := answered
  ends := Ends first
  keeps_refl _ _ := id

/-- The controller is put back where it was. -/
theorem with_controller {globals : Globals} {contStr : ControllerStruct}
    (found : globals.insContStr = some contStr) :
    { globals with insContStr := some contStr } = globals := by
  rw [← found]

end Globals

section Times

variable {exchanges more : Exchanges} {now : Timespec} {sleepUntil : Option Timespec}
  {holds : Timespec → Prop} {contStr next : ControllerStruct} {event : Section}

theorem timings_append : timings (exchanges ++ more) = timings exchanges ++ timings more :=
  List.filterMap_append

theorem Reads.done (reads : Reads exchanges now sleepUntil holds) : holds now := by
  cases reads with
  | read _ done => exact done
  | unread _ _ done => exact done now

/-- Exchanges without a time may come before. -/
theorem Reads.behind (quiet : timings exchanges = []) (reads : Reads more now sleepUntil holds) :
    Reads (exchanges ++ more) now sleepUntil holds := by
  have same : timings (exchanges ++ more) = timings more := by rw [timings_append, quiet, List.nil_append]
  cases reads with
  | read times done => exact .read (same.trans times) done
  | unread times sleepless done => exact .unread (same.trans times) sleepless done

theorem Reads.mono {weaker : Timespec → Prop} (reads : Reads exchanges now sleepUntil holds)
    (implied : ∀ now, holds now → weaker now) : Reads exchanges now sleepUntil weaker := by
  cases reads with
  | read times done => exact .read times (implied _ done)
  | unread times sleepless done => exact .unread times sleepless fun now => implied _ (done now)

theorem TimedSection.taken (timed : TimedSection contStr event exchanges next) :
    SectionStep contStr event next := by
  cases event with
  | enter | leave => exact Reads.done timed
  | _ => exact timed.1

/-- A section without a data call has no times. -/
theorem SectionStep.silent (taken : SectionStep contStr event next) (other : event.transfers = false)
    (quiet : timings exchanges = []) : TimedSection contStr event exchanges next := by
  cases event with
  | enter | leave => cases other
  | _ => exact ⟨taken, quiet⟩

end Times

section Steps

variable {first contStr : ControllerStruct} {Allowed : Section → Prop} {base globals : Globals}
  {post : Exchanges → Globals → Thread → Prop} {fd : Int} {flag : Bool} {exchanges : Exchanges}

/-- The rest of a section that started at the base state. -/
abbrev InSection (first : ControllerStruct) (Allowed : Section → Prop) (base : Globals)
    (post : Exchanges → Globals → Thread → Prop) : Exchanges → Globals → Thread → Prop :=
  Program.Within (Globals.contract first Allowed).inside ((Globals.contract first Allowed).ends base)
    ((Globals.contract first Allowed).keeps base) post

/-- An access through the controller completes, or it ends the process inside of it. -/
theorem inSection_controller {R : Type}
    {body : ControllerStruct → Except Stop (ControllerStruct × R)} {program : R → Thread}
    (found : globals.insContStr = some contStr)
    (kept : (Globals.contract first Allowed).keeps base globals)
    (stops : ∀ stop, body contStr = .error stop → Globals.Ends first base globals (.stop stop))
    (rest : ∀ next result, body contStr = .ok (next, result) →
      InSection first Allowed base post exchanges { globals with insContStr := some next }
        (program result)) :
    InSection first Allowed base post exchanges globals (.controller body program) := by
  cases done : body contStr with
  | error stop =>
      apply Program.Within.access_error
      · simp only [found, done]
        rfl
      · exact stops stop done
  | ok pair =>
      apply Program.Within.access_ok
      · simp only [found, done]
        rfl
      · exact kept
      · exact rest pair.1 pair.2 done

theorem inSection_query {R : Type} {body : ControllerStruct → R} {program : R → Thread}
    (found : globals.insContStr = some contStr)
    (kept : (Globals.contract first Allowed).keeps base globals)
    (rest : InSection first Allowed base post exchanges globals (program (body contStr))) :
    InSection first Allowed base post exchanges globals (.query body program) := by
  refine inSection_controller found kept (fun stop failed => by cases failed) fun next result done => ?_
  obtain ⟨rfl, rfl⟩ := Prod.mk.inj (Except.ok.inj done)
  rwa [Globals.with_controller found]

theorem inSection_update {body : ControllerStruct → ControllerStruct} {program : Thread}
    (found : globals.insContStr = some contStr)
    (kept : (Globals.contract first Allowed).keeps base globals)
    (rest : InSection first Allowed base post exchanges
      { globals with insContStr := some (body contStr) } program) :
    InSection first Allowed base post exchanges globals (.update body program) := by
  refine inSection_controller found kept (fun stop failed => by cases failed) fun next result done => ?_
  obtain ⟨rfl, rfl⟩ := Prod.mk.inj (Except.ok.inj done)
  exact rest

theorem inSection_getDestPort {program : Option UInt32 → Thread}
    (found : globals.insContStr = some contStr)
    (kept : (Globals.contract first Allowed).keeps base globals)
    (stops : ∀ stop, getDestPort contStr.socStr fd = .error stop →
      Globals.Ends first base globals (.stop stop))
    (rest : ∀ port, getDestPort contStr.socStr fd = .ok port →
      InSection first Allowed base post exchanges globals (program port)) :
    InSection first Allowed base post exchanges globals (.getDestPort fd program) := by
  cases dest : getDestPort contStr.socStr fd with
  | error stop =>
      apply inSection_controller found kept
      · intro other failed
        obtain rfl : stop = other := by simpa [dest, Except.map] using failed
        exact stops stop dest
      · intro next result done
        simp [dest, Except.map] at done
  | ok port =>
      apply inSection_controller found kept
      · intro other failed
        simp [dest, Except.map] at failed
      · intro next result done
        simp only [dest, Except.map, Except.ok.injEq, Prod.mk.injEq] at done
        obtain ⟨rfl, rfl⟩ := done
        rw [Globals.with_controller found]
        exact rest port dest

/-- The steps of `get_port_remainf_byte` have the effect of the function. -/
theorem inSection_getPortRemainfByte {program : Int → Thread}
    (found : globals.insContStr = some contStr)
    (kept : (Globals.contract first Allowed).keeps base globals)
    (stops : ∀ now stop, getPortRemainfByte contStr fd flag now = .error stop →
      Globals.Ends first base globals (.stop stop))
    (rest : ∀ more now next window, Reads more now window.sleepUntil (fun now =>
        getPortRemainfByte contStr fd flag now = .ok (next, window)) →
      InSection first Allowed base post (exchanges ++ more) { globals with insContStr := some next }
        (program window.byteCanHandle)) :
    InSection first Allowed base post exchanges globals (.getPortRemainfByte fd flag program) := by
  apply inSection_getDestPort found kept
  · intro stop dest
    exact stops .zero stop (by simp only [getPortRemainfByte, dest])
  intro port dest
  cases port with
  | none => exact .access_error rfl (stops .zero .exit (by simp only [getPortRemainfByte, dest]))
  | some port =>
      -- The limit decides whether the clock is read at all.
      obtain ⟨limit, set⟩ : ∃ limit, (if !flag then getInitUpLimit contStr.regEnvStr port
        else getInitDownLimit contStr.regEnvStr port) = limit := ⟨_, rfl⟩
      apply inSection_query found kept
      simp only [set]
      by_cases unlimited : limit = -1
      · rw [if_neg (by simpa using unlimited)]
        apply inSection_update found kept
        have last := rest [] .zero _ ⟨limit, none⟩ (.unread rfl rfl fun now => by
          simp only [getPortRemainfByte, dest, portWindow, set, if_neg (not_not.mpr unlimited)]
          rfl)
        rwa [List.append_nil] at last
      · rw [if_pos unlimited]
        refine .ask trivial fun currentTime => ?_
        apply inSection_query found kept
        by_cases idle : timeDifference (getTimeVal contStr.regEnvStr port flag) currentTime > nanoMult
        · rw [if_pos idle]
          apply inSection_update found kept
          apply rest [⟨.clock, currentTime⟩] currentTime _ ⟨limit, none⟩ (.read rfl ?_)
          simp only [getPortRemainfByte, dest, portWindow, set, if_pos unlimited, if_pos idle]
        · rw [if_neg idle]
          apply inSection_query found kept
          by_cases empty : getRemainingByteCountForCurrentWindow contStr.regEnvStr port flag ≤ 0
          · rw [if_pos empty]
            refine .ask trivial fun awake => ?_
            apply inSection_update found kept
            rw [List.append_assoc]
            apply rest [⟨.clock, currentTime⟩, ⟨.nanosleep _, awake⟩] currentTime _ ⟨limit, some _⟩
              (.read rfl ?_)
            simp only [getPortRemainfByte, dest, portWindow, set, if_pos unlimited, if_neg idle,
              if_pos empty]
          · rw [if_neg empty]
            have last := rest [⟨.clock, currentTime⟩] currentTime contStr
              ⟨getRemainingByteCountForCurrentWindow contStr.regEnvStr port flag, none⟩ (.read rfl (by
                simp only [getPortRemainfByte, dest, portWindow, set, if_pos unlimited, if_neg idle,
                  if_neg empty]))
            rwa [Globals.with_controller found] at last

/-- The steps of `pre_op` have the effect of the function. -/
theorem inSection_preOp {demand : Int} {program : Bool → Int → Thread}
    (found : globals.insContStr = some contStr)
    (kept : (Globals.contract first Allowed).keeps base globals)
    (stops : ∀ now stop, preOp contStr fd demand flag now = .error stop →
      Globals.Ends first base globals (.stop stop))
    (rest : ∀ more now next grant, Reads more now grant.sleepUntil (fun now =>
        preOp contStr fd demand flag now = .ok (next, grant)) →
      InSection first Allowed base post (exchanges ++ more) { globals with insContStr := some next }
        (program grant.active grant.demand)) :
    InSection first Allowed base post exchanges globals (.preOp fd demand flag program) := by
  apply inSection_query found kept
  by_cases present : isAcpSockFdPresent contStr.socStr fd = true
  · rw [if_pos present]
    apply inSection_getPortRemainfByte found kept
    · intro now stop failed
      exact stops now stop (by simp only [preOp, if_pos present, failed])
    · intro more now next window reads
      apply rest more now next ⟨true, _, window.sleepUntil⟩ (reads.mono fun now done => ?_)
      simp only [preOp, if_pos present, done]
      rfl
  · rw [if_neg present]
    have last := rest [] .zero contStr ⟨false, demand, none⟩ (.unread rfl rfl fun now => by
      simp only [preOp, if_neg present])
    rwa [Globals.with_controller found, List.append_nil] at last

/-- The steps of `do_update` have the effect of the function. -/
theorem inSection_doUpdate {moved : Int} {program : Thread}
    (found : globals.insContStr = some contStr)
    (kept : (Globals.contract first Allowed).keeps base globals)
    (stops : ∀ stop, doUpdate contStr moved fd flag = .error stop →
      Globals.Ends first base globals (.stop stop))
    (rest : ∀ next, doUpdate contStr moved fd flag = .ok next →
      InSection first Allowed base post exchanges { globals with insContStr := some next } program) :
    InSection first Allowed base post exchanges globals (.doUpdate moved fd flag program) := by
  unfold Thread.doUpdate
  split
  · rename_i positive
    apply inSection_getDestPort found kept
    · intro stop dest
      exact stops stop (by simp only [doUpdate, if_pos positive, dest])
    intro port dest
    cases port with
    | none =>
        have last := rest contStr
        rw [Globals.with_controller found] at last
        apply last
        simp only [doUpdate, if_pos positive, dest]
    | some port =>
        apply inSection_update found kept
        apply rest
        simp only [doUpdate, if_pos positive, dest]
  · rename_i none'
    have last := rest contStr
    rw [Globals.with_controller found] at last
    apply last
    simp only [doUpdate, if_neg none']

/-- The steps of `update_time` have the effect of the function. -/
theorem inSection_updateTime {program : Thread} (found : globals.insContStr = some contStr)
    (kept : (Globals.contract first Allowed).keeps base globals)
    (stops : ∀ now stop, updateTime contStr fd flag now = .error stop →
      Globals.Ends first base globals (.stop stop))
    (rest : ∀ more now next, Reads more now none (fun now => ∃ done,
        updateTime contStr fd flag now = .ok (next, done)) →
      InSection first Allowed base post (exchanges ++ more) { globals with insContStr := some next }
        program) :
    InSection first Allowed base post exchanges globals (.updateTime fd flag program) := by
  apply inSection_getDestPort found kept
  · intro stop dest
    exact stops .zero stop (by simp only [updateTime, dest])
  intro port dest
  cases port with
  | none =>
      have last := rest [] .zero contStr (.unread rfl rfl fun now => ⟨_, by
        simp only [updateTime, dest]
        rfl⟩)
      rwa [Globals.with_controller found, List.append_nil] at last
  | some port =>
      apply inSection_query found kept
      by_cases entry : (contStr.regEnvStr.get port).isSome = true
      · rw [if_pos entry]
        refine .ask trivial fun now => ?_
        apply inSection_update found kept
        apply rest [⟨.clock, now⟩] now _ (.read rfl ⟨(updateTimeVal contStr.regEnvStr port flag now).2, ?_⟩)
        simp only [updateTime, dest]
      · rw [if_neg entry]
        have absent : contStr.regEnvStr.get port = none := by simpa using entry
        have same (now : Timespec) :
            (updateTimeVal contStr.regEnvStr port flag now).1 = contStr.regEnvStr := by
          rw [updateTimeVal_fst, RegisterEnvStruct.update_absent absent]
        have last := rest [] .zero contStr (.unread rfl rfl fun now =>
          ⟨(updateTimeVal contStr.regEnvStr port flag now).2, by simp only [updateTime, dest, same]⟩)
        rwa [Globals.with_controller found, List.append_nil] at last

/-- The steps of `regis_new_created_socket` have the effect of the function. -/
theorem inSection_regisNewCreatedSocket {port : UInt32} {program : Bool → Thread}
    (found : globals.insContStr = some contStr)
    (kept : (Globals.contract first Allowed).keeps base globals)
    (rest : InSection first Allowed base post exchanges
      { globals with insContStr := some (regisNewCreatedSocket contStr fd port).1 }
      (program (regisNewCreatedSocket contStr fd port).2)) :
    InSection first Allowed base post exchanges globals (.regisNewCreatedSocket fd port program) := by
  apply inSection_query found kept
  by_cases registered : isPortRegistered contStr.regEnvStr port = true
  · rw [if_pos registered]
    simp only [regisNewCreatedSocket, if_pos registered] at rest
    refine inSection_controller found kept (fun stop failed => by cases failed) fun next result done => ?_
    obtain ⟨same, rfl⟩ := Prod.mk.inj (Except.ok.inj done)
    rw [← same]
    exact rest
  · rw [if_neg registered]
    simp only [regisNewCreatedSocket, if_neg registered] at rest
    rwa [Globals.with_controller found] at rest

/-- Before the end of the start, the process may end in its own ways. -/
theorem ends_unstarted {stop : Stop} (unstarted : globals.init1 = false) :
    Globals.Ends first base globals (.stop stop) :=
  ⟨nofun, fun started => absurd (unstarted.symm.trans started) (by decide)⟩

/-- A section loads its pointers in order. -/
theorem inSection_loadAddr (symbols : List Symbol) {program : Thread}
    (unstarted : globals.init1 = false) (kept : (Globals.contract first Allowed).keeps base globals)
    (quiet : timings exchanges = [])
    (rest : ∀ exchanges, timings exchanges = [] → InSection first Allowed base post exchanges
      { globals with libc := fun other => decide (other ∈ symbols) || globals.libc other } program) :
    InSection first Allowed base post exchanges globals (.loadAddr symbols program) := by
  induction symbols generalizing globals exchanges with
  | nil =>
      have same : { globals with libc := fun other => decide (other ∈ []) || globals.libc other } =
          globals := by simp
      rw [same] at rest
      exact rest exchanges quiet
  | cons symbol symbols ih =>
      refine .ask trivial fun (found : Bool) => ?_
      cases found with
      | false => exact .access_error rfl (ends_unstarted unstarted)
      | true =>
          have keeps : (Globals.contract first Allowed).keeps base { globals with
              libc := fun other => if other = symbol then true else globals.libc other } := by
            intro other loaded
            have before := kept other loaded
            simp only [before, ite_self]
          apply Program.Within.access_ok rfl keeps
          refine ih unstarted keeps (timings_append.trans (by rw [quiet]; rfl)) fun exchanges quiet => ?_
          convert rest exchanges quiet using 3 with other
          by_cases same : other = symbol <;> simp [same]

/-- Every function has its pointer after the start. -/
theorem mem_symbols (symbol : Symbol) : symbol ∈ Thread.symbols := by
  cases symbol <;> decide

end Steps

section Opened

variable {first : ControllerStruct} {Allowed : Section → Prop} {globals : Globals}

theorem opened_initial : Globals.initial.opened first = ⟨true, true, some first, fun _ => true⟩ := rfl

theorem Globals.Started.opened (started : globals.Started) : globals.opened first = globals := by
  simp [Globals.opened, started.init0]

/-- Between the sections, the library waits for its start or has completed it. -/
theorem opened_started (valid : globals.Valid) : (globals.opened first).Started := by
  rcases valid with rfl | started
  · exact ⟨rfl, rfl, ⟨first, rfl⟩, fun _ => rfl⟩
  · rwa [started.opened]

theorem opened_kept (valid : globals.Valid) :
    (Globals.contract first Allowed).keeps globals (globals.opened first) :=
  fun symbol _ => (opened_started valid).loaded symbol

/-- The macro `INIT_ENV` starts the library in the first section and does nothing later. -/
theorem inSection_initEnv {start : Except Stop (ControllerStruct × Bool)}
    {post : Exchanges → Globals → Thread → Prop} {program : Thread}
    (begins : ∀ contStr returnVal, start = .ok (contStr, returnVal) →
      contStr = first ∧ returnVal = true) (valid : globals.Valid)
    (rest : ∀ exchanges, timings exchanges = [] →
      InSection first Allowed globals post exchanges (globals.opened first) program) :
    InSection first Allowed globals post [] globals (.initEnv start program) := by
  apply Program.Within.access_ok rfl ((Globals.contract first Allowed).keeps_refl globals)
  rcases valid with rfl | started
  · change InSection first Allowed _ post _ _ (.initOverload start program)
    have unloaded (later : Globals) : (Globals.contract first Allowed).keeps .initial later := by
      simp [Globals.contract, Globals.initial]
    apply Program.Within.access_ok rfl (unloaded _)
    cases start with
    | error stop => exact .access_error rfl (ends_unstarted rfl)
    | ok pair =>
        obtain ⟨rfl, returns⟩ := begins pair.1 pair.2 rfl
        apply Program.Within.access_ok rfl (unloaded _)
        rw [returns, if_pos rfl]
        refine .ask trivial fun (handle : Bool) => ?_
        cases handle with
        | false => exact .access_error rfl (ends_unstarted rfl)
        | true =>
            refine inSection_loadAddr _ rfl (unloaded _) rfl fun exchanges quiet => ?_
            apply Program.Within.access_ok rfl (unloaded _)
            simp only [mem_symbols, decide_true, Bool.true_or]
            exact rest exchanges quiet
  · have last := rest [] rfl
    rw [started.opened] at last
    simpa [started.init0] using last

end Opened

section Wrappers

variable {first : ControllerStruct} {Allowed : Section → Prop} {base globals : Globals}
  {contStr : ControllerStruct} {call next' : Option Transfer} {exchanges : Exchanges}
  {Rest : Option Transfer → Thread → Prop} {next : Thread}

/-- The fact that a thread keeps from its first section. -/
def Globals.Loaded (globals : Globals) : Prop := ∀ symbol, globals.libc symbol = true

theorem loaded_stable : Program.Stable (Globals.contract first Allowed) Globals.Loaded :=
  fun _ _ loaded keeps symbol => keeps symbol (loaded symbol)

/-- The end of a section of the wrappers. -/
def SectionEnd (first : ControllerStruct) (Allowed : Section → Prop) (base : Globals)
    (call : Option Transfer) (Rest : Option Transfer → Thread → Prop) (exchanges : Exchanges)
    (later : Globals) (next : Thread) : Prop :=
  later.Valid ∧ later.Loaded ∧ ∃ event next',
    (Globals.contract first Allowed).effect base call event exchanges later next' ∧ Rest next' next

theorem sectionEnd_none (valid : base.Valid) (quiet : timings exchanges = [])
    (step : TransferStep call none next') (rest : Rest next' next) :
    InSection first Allowed base (SectionEnd first Allowed base call Rest) exchanges (base.opened first)
      (.unlock next) :=
  have started := opened_started valid
  .unlock ⟨.inr started, started.loaded, none, next', ⟨⟨quiet, rfl⟩, nofun, step⟩, rest⟩

theorem sectionEnd_some {later : ControllerStruct} {event : Section} (valid : base.Valid)
    (found : (base.opened first).insContStr = some contStr)
    (timed : TimedSection contStr event exchanges later) (allowed : Allowed event)
    (step : TransferStep call (some event) next') (rest : Rest next' next) :
    InSection first Allowed base (SectionEnd first Allowed base call Rest) exchanges
      { base.opened first with insContStr := some later } (.unlock next) :=
  have started := opened_started valid
  .unlock ⟨.inr ⟨started.init0, started.init1, ⟨later, rfl⟩, started.loaded⟩, started.loaded,
    some event, next', ⟨⟨contStr, later, found, timed, rfl⟩,
      fun _ same => Option.some.inj same ▸ allowed, step⟩, rest⟩

/-- A section ends the process only as its function does. -/
theorem ends_section {stop : Stop} (found : (base.opened first).insContStr = some contStr)
    (stops : SectionStops contStr stop) : Globals.Ends first base globals (.stop stop) :=
  ⟨nofun, fun _ => ⟨contStr, stop, found, rfl, stops⟩⟩

/-- A thread that follows the contract from now on, without a data call under way. -/
abbrev Follows (first : ControllerStruct) (Allowed : Section → Prop) (thread : Thread) : Prop :=
  thread.Behaves (Globals.contract first Allowed) none fun _ => True

/-- A thread that follows the contract behind the start of the library. -/
abbrev FollowsLoaded (first : ControllerStruct) (Allowed : Section → Prop) (call : Option Transfer)
    (thread : Thread) : Prop :=
  thread.Behaves (Globals.contract first Allowed) call Globals.Loaded

theorem Follows.loaded (follows : Follows first Allowed next) : FollowsLoaded first Allowed none next :=
  follows.mono fun _ _ => trivial

variable {start : Except Stop (ControllerStruct × Bool)}
  (begins : ∀ contStr returnVal, start = .ok (contStr, returnVal) → contStr = first ∧ returnVal = true)

include begins in
/-- The first section of a wrapper starts the library and goes on with its own steps. -/
theorem follows_first {body : Thread} (within : ∀ base contStr exchanges, base.Valid →
      (base.opened first).insContStr = some contStr → timings exchanges = [] →
        InSection first Allowed base
          (SectionEnd first Allowed base none (FollowsLoaded first Allowed)) exchanges
          (base.opened first) body) :
    Follows first Allowed (.lock (Thread.initEnv start body)) := by
  refine .lock loaded_stable (fun base valid _ => ?_) fun call next rest => rest
  obtain ⟨contStr, found⟩ := (opened_started valid).controller
  exact inSection_initEnv begins valid fun exchanges => within base contStr exchanges valid found

/-- A later section of a wrapper finds the library started. -/
theorem follows_later {body : Thread} (within : ∀ base contStr, base.Valid →
      base.opened first = base → base.insContStr = some contStr →
        InSection first Allowed base
          (SectionEnd first Allowed base call (FollowsLoaded first Allowed)) [] base body) :
    FollowsLoaded first Allowed call (.lock body) := by
  refine .lock loaded_stable (fun base valid loaded => ?_) fun call next rest => rest
  have started : base.Started := by
    rcases valid with rfl | started
    · cases loaded .socket
    · exact started
  obtain ⟨contStr, found⟩ := started.controller
  exact within base contStr valid started.opened found

/-- A libc call goes through a loaded pointer. -/
theorem follows_libc {symbol : Symbol} {arguments : List Int} {next : Int → Thread}
    (rest : ∀ result, FollowsLoaded first Allowed none (next result)) :
    FollowsLoaded first Allowed none (.ask (.libc symbol arguments) next) :=
  .ask (fun _ loaded => ⟨loaded symbol, nofun⟩) rest

section Calls

variable {next : Int → Thread} (rest : ∀ result, Follows first Allowed (next result))

include begins rest

theorem follows_passThrough (symbol : Symbol) (arguments : List Int) :
    Follows first Allowed (.passThrough start next symbol arguments) :=
  follows_first begins fun _ _ _ valid _ quiet =>
    sectionEnd_none valid quiet .silent (follows_libc fun result => (rest result).loaded)

omit begins in
/-- The second section of a data wrapper charges the moved bytes. -/
theorem follows_charge {transfer : Transfer} {moved : Int} (result : transfer.moved = some moved)
    (leaves : ∀ now, Allowed (.leave transfer.flag transfer.fd moved now)) :
    FollowsLoaded first Allowed (some transfer) (.lock (if moved > 0 then
      Thread.doUpdate moved transfer.fd transfer.flag
        (Thread.updateTime transfer.fd transfer.flag (.unlock (next moved)))
      else .unlock (next moved))) := by
  apply follows_later
  intro base contStr valid same found
  have opened : (base.opened first).insContStr = some contStr := same.symm ▸ found
  split
  · rename_i positive
    apply inSection_doUpdate found ((Globals.contract first Allowed).keeps_refl _)
    · intro stop failed
      have stopped : leave contStr transfer.flag transfer.fd moved .zero = .error stop := by
        simp only [leave, if_pos positive, failed]
      exact ends_section opened (.leave stopped)
    intro middle updated
    have kept : (Globals.contract first Allowed).keeps base { base with insContStr := some middle } :=
      fun _ loaded => loaded
    apply inSection_updateTime rfl kept
    · intro now stop failed
      have stopped : leave contStr transfer.flag transfer.fd moved now = .error stop := by
        simp only [leave, if_pos positive, updated, failed, Except.map]
      exact ends_section opened (.leave stopped)
    intro more now later reads
    have timed : TimedSection contStr (.leave transfer.flag transfer.fd moved now) ([] ++ more) later :=
      Reads.behind rfl (reads.mono fun now left => by
        obtain ⟨done, timed⟩ := left
        refine .leave ?_
        simp only [leave, if_pos positive, updated, timed, Except.map])
    have ended := sectionEnd_some valid opened timed (leaves now) (.leave result) (rest moved).loaded
    rwa [same] at ended
  · rename_i none'
    have ended : InSection first Allowed base (SectionEnd first Allowed base (some transfer)
        (FollowsLoaded first Allowed)) [] (base.opened first) (.unlock (next moved)) :=
      sectionEnd_none valid rfl (.idle result (Int.not_lt.mp none')) (rest moved).loaded
    rwa [same] at ended

/-- A data wrapper takes one step before the libc call, and one after it that charges the bytes. -/
theorem follows_transfer {symbol : Symbol} (transfers : symbol.transfers = true) {flag : Bool} {fd : Int}
    {count : Nat} (enters : ∀ now grant, Allowed (.enter flag fd count now grant))
    (leaves : ∀ moved now, Allowed (.leave flag fd moved now)) :
    Follows first Allowed (.transfer start next symbol flag fd count) := by
  apply follows_first begins
  intro base contStr exchanges valid found quiet
  apply inSection_preOp found (opened_kept valid)
  · exact fun now stop failed => ends_section found (.enter failed)
  intro more now later grant reads
  have timed : TimedSection contStr (.enter flag fd count now grant) (exchanges ++ more) later :=
    (reads.mono fun _ entered => .enter entered).behind quiet
  have step : TransferStep none (some (.enter flag fd count now grant)) _ := .enter
  cases active : grant.active with
  | false =>
      rw [active] at step
      exact sectionEnd_some valid found timed (enters now grant) step
        (follows_libc fun result => (rest result).loaded)
  | true =>
      rw [active, if_pos rfl] at step
      refine sectionEnd_some valid found timed (enters now grant) step (.ask ?_ fun (moved : Int) => ?_)
      · intro globals loaded
        refine ⟨loaded symbol, fun transfer same => ?_⟩
        obtain rfl := Option.some.inj same
        exact ⟨rfl, transfers, rfl⟩
      · have result : Transfer.moved ⟨fd, flag, count, grant, some moved⟩ = some moved := rfl
        exact follows_charge rest result (leaves moved)

/-- A wrapper that registers the result of libc takes one step after the call. -/
theorem follows_afterwards {symbol : Symbol} {arguments : List Int}
    {body : Int → ControllerStruct → ControllerStruct} {event : Int → Section}
    (allowed : ∀ result, Allowed (event result)) (other : ∀ result, (event result).transfers = false)
    (taken : ∀ contStr result, result ≠ -1 →
      SectionStep contStr (event result) (body result contStr)) :
    Follows first Allowed (.afterwards start next symbol arguments body) := by
  refine follows_first begins fun _ _ _ valid _ quiet =>
    sectionEnd_none valid quiet .silent (follows_libc fun (result : Int) => ?_)
  split
  · rename_i proper
    apply follows_later
    intro base contStr valid same found
    apply inSection_update found ((Globals.contract first Allowed).keeps_refl _)
    have timed : TimedSection contStr (event result) [] (body result contStr) :=
      (taken contStr result proper).silent (other result) rfl
    have ended := sectionEnd_some valid (same.symm ▸ found) timed (allowed result)
      (.other (other result)) (rest result).loaded
    rwa [same] at ended
  · exact (rest result).loaded

theorem follows_close {fd : Int} (allowed : Allowed (.close fd)) :
    Follows first Allowed (.close start next fd) := by
  refine follows_first begins fun _ _ _ valid _ quiet =>
    sectionEnd_none valid quiet .silent (follows_libc fun (result : Int) => ?_)
  apply follows_later
  intro base contStr valid same found
  have opened : (base.opened first).insContStr = some contStr := same.symm ▸ found
  apply inSection_controller found ((Globals.contract first Allowed).keeps_refl _)
  · intro stop failed
    have stopped : close contStr fd = .error stop := by
      cases result : unregisterSocketDescriptor contStr.socStr fd with
      | error other => simpa [close, result, Except.map] using failed
      | ok pair => simp [result, Except.map] at failed
    exact ends_section opened (.close stopped)
  intro later done unregistered
  have closed : close contStr fd = .ok later := by
    cases result : unregisterSocketDescriptor contStr.socStr fd with
    | error stop => simp [result, Except.map] at unregistered
    | ok pair =>
        simp only [result, Except.map, Except.ok.injEq, Prod.mk.injEq] at unregistered
        simp only [close, result, Except.map, unregistered.1]
  have timed : TimedSection contStr (.close fd) [] later := SectionStep.silent (.close closed) rfl rfl
  have ended := sectionEnd_some valid opened timed allowed (.other rfl) (rest result).loaded
  rwa [same] at ended

theorem follows_bind {fd : Int} {addr : Sockaddr} (allowed : Allowed (.bind fd addr)) :
    Follows first Allowed (.bind start next fd addr) := by
  apply follows_first begins
  intro base contStr exchanges valid found quiet
  apply inSection_regisNewCreatedSocket found (opened_kept valid)
  have timed : TimedSection contStr (.bind fd addr) exchanges (bind contStr fd addr) :=
    SectionStep.silent (.bind fd addr) rfl quiet
  exact sectionEnd_some valid found timed allowed (.other rfl)
    (follows_libc fun result => (rest result).loaded)

theorem follows_connect {fd : Int} {addr : Sockaddr} (allowed : Allowed (.connect fd addr)) :
    Follows first Allowed (.connect start next fd addr) := by
  apply follows_first begins
  intro base contStr exchanges valid found quiet
  apply inSection_regisNewCreatedSocket found (opened_kept valid)
  have call : FollowsLoaded first Allowed none (.ask (.libc .connect [fd]) next) :=
    follows_libc fun result => (rest result).loaded
  have timed : TimedSection contStr (.connect fd addr) exchanges (connect contStr fd addr) :=
    SectionStep.silent (.connect fd addr) rfl quiet
  have ended := sectionEnd_some valid found timed allowed (.other rfl) call
  simp only [connect] at ended
  cases done : (regisNewCreatedSocket contStr fd addr.port).2 with
  | false =>
      rw [done] at ended
      exact ended
  | true =>
      rw [done] at ended
      rw [if_pos rfl]
      have kept : (Globals.contract first Allowed).keeps base (base.opened first) := opened_kept valid
      exact inSection_update rfl kept ended

end Calls

end Wrappers

end BandwidthLimiter
