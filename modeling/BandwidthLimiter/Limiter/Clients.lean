import BandwidthLimiter.Limiter.Accounts

namespace BandwidthLimiter
open Foundation

section Run

/-- A libc call of a data wrapper moves no more than its length. -/
def Bounded : Exchange Request Request.Answer → Prop
  | ⟨.libc symbol [_, length], moved⟩ => symbol.transfers = true → id (α := Int) moved ≤ length
  | _ => True

/-- A step of the clients that closes no descriptor with a data call under way. -/
def ClientStep {T : Type} [DecidableEq T] (first : ControllerStruct) (clients : T → Client)
    (state : Globals × (T → Option Transfer))
    (event : SerialEvent T (Option Section) Request Request.Answer)
    (next : Globals × (T → Option Transfer)) : Prop :=
  RoleStep (Globals.contract first (Taken clients)) state event next ∧
    ∀ fd, sectionOf event = some (.close fd) → ∀ thread call, state.2 thread = some call → call.fd ≠ fd

/-- The controller behind the start is accounted for. -/
def Running {T : Type} [Fintype T] (flag : Bool) (port : UInt32) (limit : Int) (first : ControllerStruct)
    (sections : List Section) (state : Globals × (T → Option Transfer)) (clock : Int) : Prop :=
  state.1.Valid ∧ ∃ contStr registry data,
    (state.1.opened first).insContStr = some contStr ∧
      Accounted flag port limit first contStr sections state.2 clock registry data

variable {T : Type} [Fintype T] [DecidableEq T] {flag : Bool} {port : UInt32} {limit : Int}
  {first contStr next : ControllerStruct} {sections : List Section} {clients : T → Client} {clock : Int}

/-- A second section without a step ends its data call. -/
theorem TransferStep.none_eq {call after : Option Transfer} (step : TransferStep call none after) :
    after = none := by
  cases step <;> rfl

/-- One step of any thread keeps the controller accounted for. -/
theorem ClientStep.running {state later : Globals × (T → Option Transfer)}
    {event : SerialEvent T (Option Section) Request Request.Answer} (limited : 0 < limit)
    (single : ∀ event, Taken clients event → event.duplicates = false)
    (fits : ∀ flag fd count now grant, Taken clients (.enter flag fd count now grant) → count < 2 ^ 63)
    (running : Running flag port limit first sections state clock)
    (taken : ClientStep first clients state event later) (timely : Timely clock (timesOf event.asks))
    (bounded : ∀ ask ∈ event.asks, Bounded ask.2) :
    Running flag port limit first (sections ++ (sectionOf event).toList) later
      ((timesOf event.asks).foldl Timing.after clock) := by
  obtain ⟨valid, contStr, registry, data, found, accounted⟩ := running
  obtain ⟨taken, spared⟩ := taken
  cases taken with
  | @ask globals roles thread exchange allowed =>
      obtain ⟨request, answer⟩ := exchange
      cases request with
      | libc symbol arguments =>
          refine ⟨valid, contStr, registry, data, found, ?_⟩
          have quiet : timesOf (SerialEvent.asks (.ask thread ⟨.libc symbol arguments, answer⟩ :
              SerialEvent T (Option Section) Request Request.Answer)) = [] := rfl
          rw [quiet]
          simp only [sectionOf, Option.toList_none, List.append_nil]
          change Accounted flag port limit first contStr sections
            (Function.update roles thread ((roles thread).map _)) clock registry data
          cases held : roles thread with
          | none => exact accounted.drop thread
          | some call =>
              obtain ⟨-, moves⟩ := allowed
              obtain ⟨waiting, transfers, rfl⟩ := moves call held
              exact accounted.answer held (bounded _ List.mem_cons_self transfers)
      | _ => cases allowed
  | @locked globals after roles thread event exchanges role effect =>
      obtain ⟨effect, allowed, step⟩ := effect
      have started : (globals.opened first).Started := opened_started valid
      rw [SerialEvent.asks, timesOf_section] at timely ⊢
      cases event with
      | none =>
          obtain ⟨quiet, rfl⟩ := effect
          obtain rfl := step.none_eq
          rw [quiet]
          refine ⟨.inr started, contStr, registry, data, ?_, ?_⟩
          · rw [started.opened]
            exact found
          · simpa [sectionOf] using accounted.drop thread
      | some event =>
          obtain ⟨current, next, same, timed, rfl⟩ := effect
          obtain rfl := Option.some.inj (found.symm.trans same)
          have opened : Globals.Started { globals.opened first with insContStr := some next } :=
            ⟨started.init0, started.init1, ⟨next, rfl⟩, started.loaded⟩
          have takes := allowed event rfl
          obtain ⟨registry, data, accounted⟩ := accounted.locked limited timed step (single event takes)
            (fun flag fd count now grant same => fits flag fd count now grant (same ▸ takes))
            (fun fd same => spared fd (congrArg some same)) timely
          exact ⟨.inr opened, next, registry, data, by rw [opened.opened], accounted⟩

omit [Fintype T] in
/-- Clients that close no descriptor close none with a data call under way. -/
theorem clientStep_of_open {state later : Globals × (T → Option Transfer)}
    {event : SerialEvent T (Option Section) Request Request.Answer}
    (opens : ∀ fd, ¬Taken clients (.close fd))
    (taken : RoleStep (Globals.contract first (Taken clients)) state event later) :
    ClientStep first clients state event later := by
  refine ⟨taken, fun fd closes => ?_⟩
  cases taken with
  | ask => cases closes
  | locked effect => exact absurd (effect.2.1 _ closes) (opens fd)

/-- A run of the clients keeps the controller accounted for. -/
theorem clientRun_running {state : Globals × (T → Option Transfer)}
    {events : List (SerialEvent T (Option Section) Request Request.Answer)} (limited : 0 < limit)
    (single : ∀ event, Taken clients event → event.duplicates = false)
    (fits : ∀ flag fd count now grant, Taken clients (.enter flag fd count now grant) → count < 2 ^ 63)
    (initial : Running flag port limit first [] (.initial, fun _ : T => none) clock)
    (run : Run (ClientStep first clients) (.initial, fun _ => none) events state)
    (timely : Timely clock (timesOf (events.flatMap SerialEvent.asks)))
    (bounded : ∀ ask ∈ events.flatMap SerialEvent.asks, Bounded ask.2) :
    Running flag port limit first (sectionsOf events) state
      ((timesOf (events.flatMap SerialEvent.asks)).foldl Timing.after clock) := by
  refine run.history (fun events state => Timely clock (timesOf (events.flatMap SerialEvent.asks)) →
    (∀ ask ∈ events.flatMap SerialEvent.asks, Bounded ask.2) →
    Running flag port limit first (sectionsOf events) state
      ((timesOf (events.flatMap SerialEvent.asks)).foldl Timing.after clock))
    (fun _ _ => initial) ?_ timely bounded
  intro events state event next before taken timely bounded
  rw [List.flatMap_append, List.flatMap_singleton] at timely bounded ⊢
  rw [timesOf_append] at timely ⊢
  obtain ⟨early, late⟩ := timely_append.mp timely
  rw [sectionsOf_snoc, List.foldl_append]
  exact taken.running limited single fits (before early fun ask mem =>
    bounded ask (List.mem_append_left _ mem)) late fun ask mem => bounded ask (List.mem_append_right _ mem)

/-- From the start of the process to the bytes on the wire: every interleaving of the threads has a
history of whole sections with the same exchanges, and in every such history that closes no descriptor
with a data call under way, the threads transfer at most a limit for each of them in each second. -/
theorem interleaving_rate {fuel : Nat} {host : Host} {startup : Startup} {data : PortStruct}
    {moves : List (Move T Request Request.Answer)} {pool : Pool T Globals Ending Request Request.Answer}
    (begun : initEnvFromHost fuel host = some (.ok startup))
    (single : ∀ event, Taken clients event → event.duplicates = false)
    (fits : ∀ flag fd count now grant, Taken clients (.enter flag fd count now grant) → count < 2 ^ 63)
    (run : Run PoolStep (clientPool (startOf (.ok startup)) clients) moves pool)
    (free : pool.holder = none) (bounded : ∀ ask ∈ moves.flatMap Move.asks, Bounded ask.2)
    (timely : Timely clock (timesOf (moves.flatMap Move.asks)))
    (found : startup.contStr.regEnvStr.get port = some data) (limited : 0 < data.limit flag)
    (started : (data.startTime flag).nanos ≤ clock) :
    (∃ events calls, Run SerialStep (clientPool (startOf (.ok startup)) clients) events pool ∧
      Run (RoleStep (Globals.contract startup.contStr (Taken clients))) (.initial, fun _ => none) events
        (pool.shared, calls) ∧
      SameAsks private' (moves.flatMap Move.asks) (events.flatMap SerialEvent.asks)) ∧
    ∀ events calls, Run (ClientStep startup.contStr clients) (.initial, fun _ => none) events
        (pool.shared, calls) →
      SameAsks private' (moves.flatMap Move.asks) (events.flatMap SerialEvent.asks) →
        ∀ (first last : Int) (k : Nat), last - first < k * nanoMult →
          within (sectionCharges flag port startup.contStr (sectionsOf events)) first last ≤
            k * (Fintype.card T * data.limit flag) := by
  constructor
  · obtain ⟨events, base, calls, part, serial, allowed, -, extends', same⟩ := Pool.serializes private'
      private_inside private_outside (clientPool_safe (startup_begins begun) clients) run
    obtain ⟨rfl, rfl⟩ := (Pool.extends_free free).mp extends'
    exact ⟨events, calls, serial, allowed, by simpa using same⟩
  · intro events calls history same first last k short
    obtain ⟨-, env, registered, start⟩ := initEnvFromHost_ok begun
    have metered := registered.metered port data (by rw [start] at found; exact found)
    have bounds := (metered flag).2 limited.le
    have initial : Running flag port (data.limit flag) startup.contStr [] (.initial, fun _ : T => none)
        clock := by
      refine ⟨.inl rfl, startup.contStr, _, data, rfl, rfl, start ▸ denotes_initEnv env, found, rfl,
        nofun, ?_⟩
      have fresh : grantsOn flag port SockInvariant.setup.registry (fun _ : T => none) = fun _ => none := rfl
      rw [Team, fresh, grantsOf_none]
      exact .start bounds.1 bounds.2 started _
    have members : ∀ ask ∈ events.flatMap SerialEvent.asks, Bounded ask.2 := by
      intro ask mem
      have kind : ask ∈ (events.flatMap SerialEvent.asks).filter
          (private' ·.2 == private' ask.2) := List.mem_filter.mpr ⟨mem, by simp⟩
      rw [← same] at kind
      exact bounded ask (List.mem_of_mem_filter kind)
    obtain ⟨-, contStr, registry, later, -, accounted⟩ := clientRun_running limited single fits initial
      history (timesOf_same same ▸ timely) members
    apply accounted.team.paced.rated first last k
    rw [nsmul_eq_mul]
    exact sub_lt_iff_lt_add'.mp short

end Run

section Reader

theorem bounded_private {exchange : Exchange Request Request.Answer} (inside : private' exchange = true) :
    Bounded exchange := by
  obtain ⟨request, answer⟩ := exchange
  cases request with
  | libc => cases inside
  | _ => trivial

/-- The transfer of the reader keeps to its length. -/
theorem readExchanges_bounded : ∀ ask ∈ readExchanges, Bounded ask.2 := by
  intro ask mem
  simp only [readExchanges, List.mem_cons, List.not_mem_nil, or_false] at mem
  rcases mem with rfl | rfl | rfl | rfl | rfl
  · trivial
  · trivial
  · exact fun _ => le_rfl
  · trivial
  · trivial

theorem readClients_rate : ∃ events : List (SerialEvent Bool (Option Section) Request Request.Answer),
    Run SerialStep (clientPool (startOf (.ok webStartup)) readClients) events
      (readPool (webGlobals chargedConnection) none .done .done) ∧
    within (sectionCharges true 80 webStartup.contStr (sectionsOf events)) 0 2000000000 ≤
      (3 : Nat) * (Fintype.card Bool * 5000) := by
  obtain ⟨exchanges, moves, quiet, inner, run, same⟩ := readClients_run
  have fits : ∀ flag fd count now grant, Taken readClients (.enter flag fd count now grant) →
      count < 2 ^ 63 := by
    intro flag fd count now grant taken
    rcases readClients_taken taken with same | ⟨now, grant, same⟩ | ⟨moved, now, same⟩
    · cases same
    · cases same
      decide
    · cases same
  have entry : webStartup.contStr.regEnvStr.get 80 = some (.ofLimits 80 5 5 5) := by decide
  have bounded : ∀ ask ∈ moves.flatMap Move.asks, Bounded ask.2 := by
    rw [same]
    refine List.forall_mem_append.mpr ⟨fun ask mem => ?_, readExchanges_bounded⟩
    obtain ⟨exchange, inside, rfl⟩ := List.mem_map.mp mem
    exact bounded_private (inner exchange inside)
  have timely : Timely 0 (timesOf (moves.flatMap Move.asks)) := by
    rw [same, timesOf_append, timesOf_section, quiet]
    exact ⟨by decide, by decide, trivial⟩
  obtain ⟨⟨events, calls, serial, allowed, same⟩, rate⟩ := interleaving_rate webHost_begun
    (fun _ => readClients_single) fits run rfl bounded timely entry
    (show 0 < PortStruct.limit _ true by decide) (by decide)
  have opens : ∀ fd, ¬Taken readClients (.close fd) := by
    intro fd taken
    rcases readClients_taken taken with same | ⟨now, grant, same⟩ | ⟨moved, now, same⟩ <;> cases same
  have history := allowed.mono fun _ _ _ taken => clientStep_of_open opens taken
  exact ⟨events, serial, rate events calls history same 0 2000000000 3 (by decide)⟩

end Reader
end BandwidthLimiter
