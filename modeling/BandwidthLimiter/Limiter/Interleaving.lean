import BandwidthLimiter.Limiter.LockedSection
import BandwidthLimiter.Limiter.Start
import BandwidthLimiter.Limiter.Bounds
import BandwidthLimiter.Limiter.Request

namespace BandwidthLimiter
open Foundation

/-- The direction, the descriptor and the length of a data wrapper. -/
def Invocation.data : Invocation → Option (Bool × Int × Nat)
  | .read fd count => some (true, fd, count)
  | .recv fd len => some (true, fd, len)
  | .recvfrom fd len => some (true, fd, len)
  | .write fd len => some (false, fd, len)
  | .send fd len => some (false, fd, len)
  | .sendto fd len => some (false, fd, len)
  | _ => none

/-- The locked sections of a wrapper behind the start of the library. -/
inductive Invocation.Takes : Invocation → Section → Prop where
  | close (fd : Int) : Takes (.close fd) (.close fd)
  | accept (fd acpFd : Int) : Takes (.accept fd) (.accept fd acpFd)
  | dup (oldFd newFd : Int) : Takes (.dup oldFd) (.dup oldFd newFd)
  | dup2 (oldFd newFd returnVal : Int) : Takes (.dup2 oldFd newFd) (.dup2 oldFd newFd returnVal)
  | bind (fd : Int) (addr : Sockaddr) : Takes (.bind fd addr) (.bind fd addr)
  | connect (fd : Int) (addr : Sockaddr) : Takes (.connect fd addr) (.connect fd addr)
  | enter {invocation : Invocation} {flag : Bool} {fd : Int} {count : Nat}
      (data : invocation.data = some (flag, fd, count)) (now : Timespec) (grant : Grant) :
      Takes invocation (.enter flag fd count now grant)
  | leave {invocation : Invocation} {flag : Bool} {fd : Int} {count : Nat}
      (data : invocation.data = some (flag, fd, count)) (moved : Int) (now : Timespec) :
      Takes invocation (.leave flag fd moved now)

/-- The client makes the call when its earlier calls return some results. -/
inductive Client.Calls : Client → Invocation → Prop where
  | first {invocation : Invocation} {next : Int → Client} : Calls (.call invocation next) invocation
  | later {invocation other : Invocation} {next : Int → Client} {result : Int}
      (calls : Calls (next result) invocation) : Calls (.call other next) invocation

/-- The sections of some clients. -/
def Taken {T : Type} (clients : T → Client) (event : Section) : Prop :=
  ∃ thread invocation, (clients thread).Calls invocation ∧ invocation.Takes event

section Clients

variable {first : ControllerStruct} {Allowed : Section → Prop}
  {start : Except Stop (ControllerStruct × Bool)}
  (begins : ∀ contStr returnVal, start = .ok (contStr, returnVal) → contStr = first ∧ returnVal = true)

include begins

/-- Every wrapper follows the contract. -/
theorem follows_invocation (invocation : Invocation)
    (allowed : ∀ event, invocation.Takes event → Allowed event) {next : Int → Thread}
    (rest : ∀ result, Follows first Allowed (next result)) :
    Follows first Allowed (invocation.thread start next) := by
  have transfers {symbol : Symbol} (transfers : symbol.transfers = true) {flag : Bool} {fd : Int}
      {count : Nat} (data : invocation.data = some (flag, fd, count)) :
      Follows first Allowed (.transfer start next symbol flag fd count) :=
    follows_transfer begins rest transfers (fun now grant => allowed _ (.enter data now grant))
      fun moved now => allowed _ (.leave data moved now)
  cases invocation with
  | close fd => exact follows_close begins rest (allowed _ (.close fd))
  | accept fd =>
      apply follows_afterwards begins rest (fun acpFd => allowed _ (.accept fd acpFd)) fun _ => rfl
      intro contStr acpFd proper
      have taken : SectionStep contStr (.accept fd acpFd) _ := .accept fd acpFd
      rwa [accept, if_pos proper] at taken
  | dup oldFd =>
      apply follows_afterwards begins rest (fun newFd => allowed _ (.dup oldFd newFd)) fun _ => rfl
      intro contStr newFd proper
      have taken : SectionStep contStr (.dup oldFd newFd) _ := .dup oldFd newFd
      rwa [dup, if_pos proper] at taken
  | dup2 oldFd newFd =>
      apply follows_afterwards begins rest (fun returnVal => allowed _ (.dup2 oldFd newFd returnVal)) fun _ => rfl
      intro contStr returnVal proper
      have taken : SectionStep contStr (.dup2 oldFd newFd returnVal) _ := .dup2 oldFd newFd returnVal
      rwa [dup2, if_pos proper] at taken
  | bind fd addr => exact follows_bind begins rest (allowed _ (.bind fd addr))
  | connect fd addr => exact follows_connect begins rest (allowed _ (.connect fd addr))
  | read | recv | recvfrom | write | send | sendto => exact transfers rfl rfl
  | socket | readv | writev | select | poll => exact follows_passThrough begins rest _ _

theorem follows_client (client : Client)
    (allowed : ∀ invocation event, client.Calls invocation → invocation.Takes event → Allowed event) :
    Follows first Allowed (client.thread start) := by
  induction client with
  | stop => exact .done
  | call invocation next ih =>
      exact follows_invocation begins invocation (allowed invocation · .first) fun result =>
        ih result fun invocation event calls => allowed invocation event (.later calls)

end Clients

section Threads

/-- The section of a serial event that takes a step on the controller. -/
def sectionOf {T : Type} : SerialEvent T (Option Section) Request Request.Answer → Option Section
  | .locked _ event _ => event
  | .ask _ _ => none

/-- The sections of a serial run. -/
def sectionsOf {T : Type} (events : List (SerialEvent T (Option Section) Request Request.Answer)) :
    List Section := events.filterMap sectionOf

theorem sectionsOf_snoc {T : Type}
    (events : List (SerialEvent T (Option Section) Request Request.Answer))
    (event : SerialEvent T (Option Section) Request Request.Answer) :
    sectionsOf (events ++ [event]) = sectionsOf events ++ (sectionOf event).toList := by
  rw [sectionsOf, List.filterMap_append, List.filterMap_cons, List.filterMap_nil]
  cases sectionOf event <;> rfl

/-- The exchanges of the sections. -/
def private' : Exchange Request Request.Answer → Bool
  | ⟨.libc _ _, _⟩ => false
  | _ => true

variable {T : Type} {first : ControllerStruct} {Allowed : Section → Prop}
  {start : Except Stop (ControllerStruct × Bool)}

/-- The threads before their first calls. -/
def clientPool (start : Except Stop (ControllerStruct × Bool)) (clients : T → Client) :
    Pool T Globals Ending Request Request.Answer where
  shared := .initial
  holder := none
  threads thread := (clients thread).thread start

theorem clientPool_safe (begins : ∀ contStr returnVal, start = .ok (contStr, returnVal) →
    contStr = first ∧ returnVal = true) (clients : T → Client) :
    (clientPool start clients).Safe (Globals.contract first (Taken clients)) fun _ => none where
  free := rfl
  invariant := .inl rfl
  ready thread := ⟨fun _ => True, fun _ _ _ _ => trivial, trivial,
    follows_client begins _ fun invocation _ calls takes => ⟨thread, invocation, calls, takes⟩⟩

theorem private_inside (exchange : Exchange Request Request.Answer)
    (inside : (Globals.contract first Allowed).inside exchange.request) : private' exchange = true := by
  obtain ⟨request, answer⟩ := exchange
  cases request with
  | libc => cases inside
  | _ => rfl

theorem private_outside (role : Option Transfer) (exchange : Exchange Request Request.Answer)
    (globals : Globals) (outside : (Globals.contract first Allowed).outside role exchange.request globals) :
    private' exchange = false := by
  obtain ⟨request, answer⟩ := exchange
  cases request with
  | libc => rfl
  | _ => cases outside

/-- The sections take steps on the controller of the start. -/
theorem effects_reach [DecidableEq T] {globals : Globals} {roles : T → Option Transfer}
    {events : List (SerialEvent T (Option Section) Request Request.Answer)}
    (run : Run (RoleStep (Globals.contract first Allowed)) (.initial, fun _ => none) events
      (globals, roles)) :
    (∀ event ∈ sectionsOf events, Allowed event) ∧
      (globals = .initial ∧ sectionsOf events = [] ∨ globals.Started ∧ ∃ contStr,
        globals.insContStr = some contStr ∧ Run SectionStep first (sectionsOf events) contStr) := by
  refine run.history (fun events state => (∀ event ∈ sectionsOf events, Allowed event) ∧
    (state.1 = .initial ∧ sectionsOf events = [] ∨ state.1.Started ∧ ∃ contStr,
      state.1.insContStr = some contStr ∧ Run SectionStep first (sectionsOf events) contStr))
    ⟨by simp [sectionsOf], .inl ⟨rfl, rfl⟩⟩ ?_
  rintro events state event next ⟨allowed, before⟩ taken
  rw [sectionsOf_snoc]
  cases taken with
  | ask => simpa [sectionOf] using ⟨allowed, before⟩
  | @locked globals later roles thread event exchanges role effect =>
      obtain ⟨effect, taken, -⟩ := effect
      have opened : (globals.opened first).Started ∧ ∃ contStr,
          (globals.opened first).insContStr = some contStr ∧
            Run SectionStep first (sectionsOf events) contStr := by
        rcases before with ⟨rfl, empty⟩ | ⟨started, reached⟩
        · exact ⟨opened_started (.inl rfl), first, rfl, empty ▸ .start⟩
        · rw [started.opened]
          exact ⟨started, reached⟩
      obtain ⟨started, contStr, found, run⟩ := opened
      cases event with
      | none =>
          obtain ⟨-, rfl⟩ := effect
          simpa [sectionOf] using ⟨allowed, .inr ⟨started, contStr, found, run⟩⟩
      | some event =>
          obtain ⟨current, next, same, timed, rfl⟩ := effect
          obtain rfl := Option.some.inj (found.symm.trans same)
          refine ⟨?_, .inr ⟨⟨started.init0, started.init1, ⟨next, rfl⟩, started.loaded⟩, next, rfl,
            run.step timed.taken⟩⟩
          intro other mem
          rcases List.mem_append.mp mem with mem | mem
          · exact allowed other mem
          · obtain rfl := List.mem_singleton.mp mem
            exact taken _ rfl

/-- The result of the start for the threads. -/
def startOf (result : Except Stop Startup) : Except Stop (ControllerStruct × Bool) :=
  result.map fun startup => (startup.contStr, startup.returnVal)

variable {fuel : Nat} {host : Host} {result : Except Stop Startup}

/-- Every start that goes on has a registered table. -/
theorem startOf_begins (begun : initEnvFromHost fuel host = some result) : ∃ env, Registered env ∧
    ∀ contStr returnVal, startOf result = .ok (contStr, returnVal) →
      contStr = initEnv env ∧ returnVal = true := by
  cases result with
  | error stop => exact ⟨_, .config [], by simp [startOf, Except.map]⟩
  | ok startup =>
      obtain ⟨returns, env, registered, same⟩ := initEnvFromHost_ok begun
      refine ⟨env, registered, fun contStr returnVal started => ?_⟩
      obtain ⟨rfl, rfl⟩ := Prod.mk.inj (Except.ok.inj started)
      exact ⟨same, returns⟩

/-- The start of a host goes on with the controller of its startup. -/
theorem startup_begins {startup : Startup} (begun : initEnvFromHost fuel host = some (.ok startup))
    (contStr : ControllerStruct) (returnVal : Bool)
    (same : startOf (.ok startup) = .ok (contStr, returnVal)) :
    contStr = startup.contStr ∧ returnVal = true := by
  obtain ⟨rfl, rfl⟩ := Prod.mk.inj (Except.ok.inj same)
  exact ⟨rfl, (initEnvFromHost_ok begun).1⟩

end Threads

section FirstCall

/-- The loads of a section that finds every function. -/
theorem alone_loadAddr (symbols : List Symbol) (globals : Globals) (program : Thread) :
    ∃ exchanges, timings exchanges = [] ∧ (∀ exchange ∈ exchanges, private' exchange = true) ∧
      (Thread.loadAddr symbols program).Alone globals exchanges
        { globals with libc := fun other => decide (other ∈ symbols) || globals.libc other } program := by
  induction symbols generalizing globals with
  | nil =>
      have same : { globals with libc := fun other => decide (other ∈ []) || globals.libc other } =
          globals := by simp
      rw [same]
      exact ⟨[], rfl, nofun, .start⟩
  | cons symbol symbols ih =>
      have asked : (Thread.loadAddr (symbol :: symbols) program).Alone globals [] globals
          (.ask (.dlsym symbol) _) := .start
      have stored : (Thread.loadAddr (symbol :: symbols) program).Alone globals
          [⟨.dlsym symbol, true⟩] _ (Thread.loadAddr symbols program) := (asked.ask true).access rfl
      obtain ⟨exchanges, quiet, inner, loaded⟩ := ih { globals with
        libc := fun other => if other = symbol then true else globals.libc other }
      refine ⟨[⟨.dlsym symbol, true⟩] ++ exchanges, quiet, by simpa [private'] using inner, ?_⟩
      convert stored.trans loaded using 2
      funext other
      by_cases same : other = symbol <;> simp [same]

/-- The first section of a thread whose start succeeds. -/
theorem alone_initEnv (first : ControllerStruct) (program : Thread) :
    ∃ exchanges, timings exchanges = [] ∧ (∀ exchange ∈ exchanges, private' exchange = true) ∧
      (Thread.initEnv (.ok (first, true)) program).Alone .initial exchanges
        (Globals.initial.opened first) program := by
  have begun : (Thread.initEnv (.ok (first, true)) program).Alone .initial [] .initial
      (Thread.initOverload (.ok (first, true)) program) := .access .start rfl
  have opened : (Thread.initOverload (.ok (first, true)) program).Alone .initial []
      ⟨true, false, some first, fun _ => false⟩ (.ask .dlopen _) := .access (.access .start rfl) rfl
  obtain ⟨exchanges, quiet, inner, loads⟩ := alone_loadAddr Thread.symbols
    ⟨true, false, some first, fun _ => false⟩ (.access fun globals =>
      .ok ({ globals with init1 := true }, program))
  have loaded : (Thread.initOverload (.ok (first, true)) program).Alone .initial
      ([⟨.dlopen, true⟩] ++ exchanges) _ program := ((opened.ask true).trans loads).access rfl
  refine ⟨[⟨.dlopen, true⟩] ++ exchanges, quiet, by simpa [private'] using inner, ?_⟩
  simpa only [opened_initial, mem_symbols, decide_true, Bool.true_or, List.nil_append] using
    begun.trans loaded

end FirstCall

section Reader

variable {start shared : Globals} {program next : Thread} {exchanges : Exchanges}
  {contStr : ControllerStruct}

theorem alone_query {R : Type} {body : ControllerStruct → R} {rest : R → Thread}
    (before : program.Alone start exchanges shared (Thread.query body rest))
    (found : shared.insContStr = some contStr) :
    program.Alone start exchanges shared (rest (body contStr)) := by
  apply before.access
  simp only [found]
  rw [Globals.with_controller found]

theorem alone_update {body : ControllerStruct → ControllerStruct}
    (before : program.Alone start exchanges shared (Thread.update body next))
    (found : shared.insContStr = some contStr) :
    program.Alone start exchanges { shared with insContStr := some (body contStr) } next := by
  apply before.access
  simp only [found]

theorem alone_getDestPort {fd : Int} {port : Option UInt32} {rest : Option UInt32 → Thread}
    (before : program.Alone start exchanges shared (Thread.getDestPort fd rest))
    (found : shared.insContStr = some contStr) (dest : getDestPort contStr.socStr fd = .ok port) :
    program.Alone start exchanges shared (rest port) := by
  apply before.access
  simp only [found, dest, Except.map]
  rw [Globals.with_controller found]

theorem alone_doUpdate {fd moved : Int} {flag : Bool} {port : UInt32}
    (before : program.Alone start exchanges shared (Thread.doUpdate moved fd flag next))
    (found : shared.insContStr = some contStr) (positive : moved > 0)
    (dest : getDestPort contStr.socStr fd = .ok (some port)) :
    program.Alone start exchanges { shared with insContStr := some { contStr with
      regEnvStr := (updateByteCountCurrentWindow contStr.regEnvStr port moved flag).1 } } next := by
  rw [Thread.doUpdate, if_pos positive] at before
  exact alone_update (alone_getDestPort before found dest) found

/-- A host that limits port 80 in both directions. -/
def webHost : Host :=
  ⟨fun name => some (if name = "RESILIENCE_PORTS" then "80".toList else "5".toList), none,
    fun _ => none, .leftToRight⟩

def webStartup : Startup := ⟨true, initEnv (doRegister 80 5 5 5), webHost.environment⟩

theorem webHost_begun : initEnvFromHost 0 webHost = some (.ok webStartup) := rfl

/-- The connection 4 of a client behind the start with port 80. -/
def webConnection : ControllerStruct := connect webStartup.contStr 4 ⟨afInet, 0, 80⟩

/-- The globals behind the connection. -/
def webGlobals (contStr : ControllerStruct) : Globals :=
  { Globals.initial.opened webStartup.contStr with insContStr := some contStr }

set_option maxRecDepth 4000 in
/-- The first section of a client that connects. -/
theorem alone_connect (next : Thread) : ∃ exchanges, timings exchanges = [] ∧
    (∀ exchange ∈ exchanges, private' exchange = true) ∧
    (Thread.initEnv (startOf (.ok webStartup)) (Thread.regisNewCreatedSocket 4 80 fun done =>
      if done then Thread.update (fun contStr =>
        { contStr with socStr := (registerSock contStr.socStr 4 4).1 }) next else next)).Alone
      .initial exchanges (webGlobals webConnection) next := by
  obtain ⟨exchanges, quiet, inner, begun⟩ := alone_initEnv webStartup.contStr
    (Thread.regisNewCreatedSocket 4 80 fun done => if done then Thread.update (fun contStr =>
      { contStr with socStr := (registerSock contStr.socStr 4 4).1 }) next else next)
  refine ⟨exchanges, quiet, inner, ?_⟩
  have asked := alone_query begun rfl
  rw [if_pos (by decide)] at asked
  have declared := asked.access rfl
  simp only [if_true] at declared
  exact alone_update declared rfl

set_option maxRecDepth 4000 in
theorem webConnection_dest : getDestPort webConnection.socStr 4 = .ok (some 80) := by decide

set_option maxRecDepth 4000 in
/-- The first section of a read that is granted the whole budget. -/
theorem alone_read (next : Bool → Int → Thread) :
    (Thread.initEnv (startOf (.ok webStartup)) (Thread.preOp 4 9000 true next)).Alone
      (webGlobals webConnection) [⟨.clock, ⟨1, 0⟩⟩] (webGlobals webConnection) (next true 5000) := by
  have begun : (Thread.initEnv (startOf (.ok webStartup)) (Thread.preOp 4 9000 true next)).Alone
      (webGlobals webConnection) [] (webGlobals webConnection) (Thread.preOp 4 9000 true next) :=
    .access .start rfl
  have present := alone_query begun rfl
  rw [if_pos (by decide)] at present
  have named := alone_getDestPort present rfl webConnection_dest
  have limit := alone_query named rfl
  rw [if_pos (by decide)] at limit
  have time := alone_query (limit.ask ⟨1, 0⟩) rfl
  rw [if_neg (by decide)] at time
  have left := alone_query time rfl
  rw [if_neg (by decide)] at left
  exact left

/-- The connection after the charge of the read. -/
def chargedConnection : ControllerStruct :=
  { webConnection with regEnvStr := (updateTimeVal
    (updateByteCountCurrentWindow webConnection.regEnvStr 80 5000 true).1 80 true ⟨1, 5⟩).1 }

theorem chargedConnection_entry : ∃ data, chargedConnection.regEnvStr.get 80 = some data ∧
    data.limit true = 5000 ∧ data.remaining true = 0 := by
  have spent : (chargedConnection.regEnvStr.get 80).map
      (fun data => (data.limit true, data.remaining true)) = some (5000, 0) := by decide
  obtain ⟨data, found, same⟩ := Option.map_eq_some_iff.mp spent
  exact ⟨data, found, congrArg Prod.fst same, congrArg Prod.snd same⟩

/-- The second section of the read. -/
theorem alone_charge (next : Thread) :
    (Thread.doUpdate 5000 4 true (Thread.updateTime 4 true next)).Alone (webGlobals webConnection)
      [⟨.clock, ⟨1, 5⟩⟩] (webGlobals chargedConnection) next := by
  have updated := alone_doUpdate (.start : (Thread.doUpdate 5000 4 true (Thread.updateTime 4 true next)).Alone
    (webGlobals webConnection) [] (webGlobals webConnection) _) rfl (by decide) webConnection_dest
  have named := alone_getDestPort updated rfl webConnection_dest
  have entry := alone_query named rfl
  rw [if_pos (by decide)] at entry
  exact alone_update (entry.ask ⟨1, 5⟩) rfl

/-- One thread reads on a new connection, and another one opens a socket. -/
def readClients : Bool → Client
  | true => .call (.connect 4 ⟨afInet, 0, 80⟩) fun _ => .call (.read 4 9000) fun _ => .stop
  | false => .call (.socket 2 1 0) fun _ => .stop

/-- The sections of the reader. -/
theorem readClients_taken {event : Section} (taken : Taken readClients event) :
    event = .connect 4 ⟨afInet, 0, 80⟩ ∨ (∃ now grant, event = .enter true 4 9000 now grant) ∨
      ∃ moved now, event = .leave true 4 moved now := by
  obtain ⟨thread, invocation, calls, takes⟩ := taken
  cases thread with
  | false =>
      cases calls with
      | first => cases takes with | enter data | leave data => cases data
      | later calls => cases calls
  | true =>
      cases calls with
      | first =>
          cases takes with
          | connect => exact .inl rfl
          | enter data | leave data => cases data
      | later calls =>
          cases calls with
          | first =>
              cases takes with
              | enter data => cases data; exact .inr (.inl ⟨_, _, rfl⟩)
              | leave data => cases data; exact .inr (.inr ⟨_, _, rfl⟩)
          | later calls => cases calls

theorem readClients_single {event : Section} (taken : Taken readClients event) :
    event.duplicates = false := by
  rcases readClients_taken taken with rfl | ⟨now, grant, rfl⟩ | ⟨moved, now, rfl⟩ <;> rfl

/-- The pool of the reader and the other thread. -/
def readPool (shared : Globals) (holder : Option Bool) (reader other : Thread) :
    Pool Bool Globals Ending Request Request.Answer :=
  ⟨shared, holder, fun thread => if thread then reader else other⟩

theorem readPool_ext {pool : Pool Bool Globals Ending Request Request.Answer} {holder : Option Bool}
    {reader other : Thread} (same : pool.shared = shared) (held : pool.holder = holder)
    (runs : pool.threads true = reader) (waits : pool.threads false = other) :
    readPool shared holder reader other = pool := by
  refine Pool.ext same.symm held.symm ?_
  funext thread
  cases thread
  · exact waits.symm
  · exact runs.symm

theorem readPool_step {pool next : Pool Bool Globals Ending Request Request.Answer}
    {move : Move Bool Request Request.Answer} {holder : Option Bool} {reader other : Thread}
    (taken : PoolStep pool move next) (same : next.shared = shared) (held : next.holder = holder)
    (runs : next.threads true = reader) (waits : next.threads false = other) :
    PoolStep pool move (readPool shared holder reader other) :=
  readPool_ext same held runs waits ▸ taken

/-- A locked section of the reader. -/
theorem readPool_locked {body : Thread} {later : Globals} (other : Thread)
    (alone : body.Alone shared exchanges later (.unlock next)) : ∃ moves,
    Run PoolStep (readPool shared none (.lock body) other) moves (readPool later none next other) ∧
      moves.flatMap Move.asks = exchanges.map (true, ·) := by
  have taken : SerialStep (readPool shared none (.lock body) other) (.locked true () exchanges) _ :=
    .locked rfl alone ()
  obtain ⟨moves, run, same⟩ := Pool.serialStep_unfolds rfl taken
  refine ⟨moves, ?_, same⟩
  convert run using 1
  exact readPool_ext rfl rfl rfl rfl

theorem readPool_ask (shared : Globals) (holder : Option Bool) (request : Request) (rest : request.Answer → Thread)
    (other : Thread) (answer : request.Answer) :
    PoolStep (readPool shared holder (.ask request rest) other) (.ask true ⟨request, answer⟩)
      (readPool shared holder (rest answer) other) :=
  readPool_step (.ask rfl answer) rfl rfl rfl rfl

theorem readPool_askOther (shared : Globals) (holder : Option Bool) (reader : Thread)
    (request : Request) (rest : request.Answer → Thread) (answer : request.Answer) :
    PoolStep (readPool shared holder reader (.ask request rest)) (.ask false ⟨request, answer⟩)
      (readPool shared holder reader (rest answer)) :=
  readPool_step (.ask rfl answer) rfl rfl rfl rfl

/-- The read of the reader. -/
def readCall : Thread := (Client.call (.read 4 9000) fun _ => .stop).thread (startOf (.ok webStartup))

/-- The charge of the read. -/
def readCharge (moved : Int) : Thread :=
  .lock (if moved > 0 then Thread.doUpdate moved 4 true (Thread.updateTime 4 true (.unlock .done))
    else .unlock .done)

/-- The call of the other thread. -/
def socketCall : Thread :=
  Thread.initEnv (startOf (.ok webStartup)) (.unlock (.ask (.libc .socket [2, 1, 0]) fun _ => .done))

/-- The reader is about to transfer, and the other thread holds the lock. -/
def readingPool : Pool Bool Globals Ending Request Request.Answer :=
  readPool (webGlobals webConnection) (some false) (.ask (.libc .read [4, 5000]) readCharge) socketCall

/-- The exchanges behind the lookups of the start. -/
def readExchanges : List (Bool × Exchange Request Request.Answer) :=
  [(true, ⟨.libc .connect [4], (0 : Int)⟩), (true, ⟨.clock, (⟨1, 0⟩ : Timespec)⟩),
    (true, ⟨.libc .read [4, 5000], (5000 : Int)⟩), (false, ⟨.libc .socket [2, 1, 0], (5 : Int)⟩),
    (true, ⟨.clock, (⟨1, 5⟩ : Timespec)⟩)]

/-- The reader connects and is granted the whole budget. -/
theorem readClients_reading : ∃ exchanges moves, timings exchanges = [] ∧
    (∀ exchange ∈ exchanges, private' exchange = true) ∧
    Run PoolStep (clientPool (startOf (.ok webStartup)) readClients) moves readingPool ∧
    moves.flatMap Move.asks = exchanges.map (true, ·) ++ readExchanges.take 2 := by
  have begins : readPool .initial none ((readClients true).thread (startOf (.ok webStartup)))
      (.lock socketCall) = clientPool (startOf (.ok webStartup)) readClients :=
    readPool_ext rfl rfl rfl rfl
  obtain ⟨exchanges, quiet, inner, connects⟩ :=
    alone_connect (.unlock (.ask (.libc .connect [4]) fun _ => readCall))
  obtain ⟨first, connected, asked⟩ := readPool_locked (.lock socketCall) connects
  have called := connected.step
    (readPool_ask _ none (.libc .connect [4]) (fun _ => readCall) (.lock socketCall) (0 : Int))
  have reads := alone_read fun active demand =>
    if active then .unlock (.ask (.libc .read [4, sizeT demand]) readCharge)
    else .unlock (.ask (.libc .read [4, 9000]) fun _ => .done)
  obtain ⟨second, granted, clock⟩ := readPool_locked (.lock socketCall) reads
  have locks : PoolStep (readPool (webGlobals webConnection) none
    (.ask (.libc .read [4, 5000]) readCharge) (.lock socketCall)) (.lock false) readingPool :=
    readPool_step (.lock rfl rfl) rfl rfl rfl rfl
  refine ⟨exchanges, _, quiet, inner, begins ▸ called.append (granted.step locks), ?_⟩
  simp [asked, clock, Move.asks, readExchanges]

/-- The transfer runs while the other thread holds the lock, and the charge follows. -/
theorem readingPool_run : ∃ moves, Run PoolStep readingPool moves
    (readPool (webGlobals chargedConnection) none .done .done) ∧
      moves.flatMap Move.asks = readExchanges.drop 2 := by
  have transfers := readPool_ask (webGlobals webConnection) (some false)
    (.libc .read [4, 5000]) readCharge socketCall (5000 : Int)
  let opens : Thread := .ask (.libc .socket [2, 1, 0]) fun _ => .done
  have starts : PoolStep (readPool (webGlobals webConnection) (some false) (readCharge 5000) socketCall)
      (.access false) (readPool (webGlobals webConnection) (some false) (readCharge 5000) (.unlock opens)) :=
    readPool_step (.access rfl rfl) rfl rfl rfl rfl
  have leaves : PoolStep
      (readPool (webGlobals webConnection) (some false) (readCharge 5000) (.unlock opens))
      (.unlock false) (readPool (webGlobals webConnection) none (readCharge 5000) opens) :=
    readPool_step (.unlock rfl) rfl rfl rfl rfl
  have opened := readPool_askOther (webGlobals webConnection) none (readCharge 5000)
    (.libc .socket [2, 1, 0]) (fun _ => .done) (5 : Int)
  obtain ⟨moves, charges, clock⟩ := readPool_locked .done (alone_charge (.unlock .done))
  refine ⟨_, .cons transfers (.cons starts (.cons leaves (.cons opened charges))), ?_⟩
  simp [clock, Move.asks, readExchanges]

/-- The whole run of the two threads. -/
theorem readClients_run : ∃ exchanges moves, timings exchanges = [] ∧
    (∀ exchange ∈ exchanges, private' exchange = true) ∧
    Run PoolStep (clientPool (startOf (.ok webStartup)) readClients) moves
      (readPool (webGlobals chargedConnection) none .done .done) ∧
    moves.flatMap Move.asks = exchanges.map (true, ·) ++ readExchanges := by
  obtain ⟨exchanges, before, quiet, inner, reading, asked⟩ := readClients_reading
  obtain ⟨after, finishes, charged⟩ := readingPool_run
  refine ⟨exchanges, _, quiet, inner, reading.append finishes, ?_⟩
  rw [List.flatMap_append, asked, charged, List.append_assoc, List.take_append_drop]

end Reader

section Interleaving

variable {T : Type} [DecidableEq T] {fuel : Nat} {host : Host} {result : Except Stop Startup}
  {clients : T → Client} {moves : List (Move T Request Request.Answer)}
  {pool : Pool T Globals Ending Request Request.Answer}

/-- A controller that is found while the lock is free is one that locked sections reach from the start. -/
theorem reached_of_free {startup : Startup} {contStr : ControllerStruct}
    (begun : initEnvFromHost fuel host = some (.ok startup))
    (run : Run PoolStep (clientPool (startOf (.ok startup)) clients) moves pool)
    (free : pool.holder = none) (found : pool.shared.insContStr = some contStr) :
    ∃ sections, Run SectionStep startup.contStr sections contStr := by
  obtain ⟨events, base, later, exchanges, -, allowed, -, extends', -⟩ := Pool.serializes private'
    private_inside private_outside (clientPool_safe (startup_begins begun) clients) run
  obtain ⟨rfl, -⟩ := (Pool.extends_free free).mp extends'
  rcases (effects_reach allowed).2 with ⟨initial, -⟩ | ⟨-, last, held, run⟩
  · rw [initial] at found
    cases found
  · obtain rfl := Option.some.inj (found.symm.trans held)
    exact ⟨_, run⟩

/-- In every order of the steps, the limits are those of the start whenever the lock is free, and no
budget is below zero or above its limit. -/
theorem interleaving_budgets {startup : Startup} {contStr : ControllerStruct}
    (begun : initEnvFromHost fuel host = some (.ok startup))
    (run : Run PoolStep (clientPool (startOf (.ok startup)) clients) moves pool)
    (free : pool.holder = none) (found : pool.shared.insContStr = some contStr) :
    LimitsKept startup.contStr.regEnvStr contStr.regEnvStr ∧
      ∀ port data flag, contStr.regEnvStr.get port = some data → 0 ≤ data.limit flag →
        0 ≤ data.remaining flag ∧ data.remaining flag ≤ data.limit flag := by
  obtain ⟨sections, reached⟩ := reached_of_free begun run free found
  obtain ⟨-, env, registered, same⟩ := initEnvFromHost_ok begun
  refine ⟨sectionRun_limits reached, fun port data flag entry limited => ?_⟩
  rw [same] at reached
  have reachable : Reachable contStr := ⟨env, sections, registered, reached⟩
  exact (reachable.metered port data entry flag).2 limited

theorem readClients_budgets : ∃ moves pool data,
    Run PoolStep (clientPool (startOf (.ok webStartup)) readClients) moves pool ∧
    pool.shared.insContStr = some chargedConnection ∧
    chargedConnection.regEnvStr.get 80 = some data ∧ data.limit true = 5000 ∧
    0 ≤ data.remaining true ∧ data.remaining true ≤ 5000 := by
  obtain ⟨exchanges, moves, -, -, run, -⟩ := readClients_run
  obtain ⟨data, entry, limit, -⟩ := chargedConnection_entry
  obtain ⟨kept, bounded⟩ := interleaving_budgets webHost_begun run rfl rfl
  have bounds := bounded 80 data true entry (by omega)
  exact ⟨moves, _, data, run, rfl, entry, limit, bounds.1, limit ▸ bounds.2⟩

/-- In every order of the steps, only the holder of the lock uses the controller, a libc call is made
without the lock and through a loaded pointer, and no thread finds the controller missing. -/
theorem interleaving_safe (begun : initEnvFromHost fuel host = some result)
    (run : Run PoolStep (clientPool (startOf result) clients) moves pool) (thread : T) :
    (∀ action, pool.threads thread = .access action → pool.holder = some thread ∧
      ∀ stop, action pool.shared = .error stop → stop ≠ .nullController) ∧
    (∀ next, pool.threads thread = .unlock next → pool.holder = some thread) ∧
    (∀ symbol arguments next, pool.threads thread = .ask (.libc symbol arguments) next →
      pool.holder ≠ some thread ∧ pool.shared.libc symbol = true) := by
  obtain ⟨env, -, begins⟩ := startOf_begins begun
  obtain ⟨events, base, later, exchanges, -, -, safe, extends', -⟩ :=
    Pool.serializes private' private_inside private_outside (clientPool_safe begins clients) run
  refine ⟨fun action runs => ⟨Pool.access_holder safe extends' (.inl ⟨action, runs⟩), ?_⟩,
    fun next leaves => Pool.access_holder safe extends' (.inr ⟨next, leaves⟩), ?_⟩
  · exact fun stop stopped => (Pool.ends_allowed safe extends' runs stopped).1
  · intro symbol arguments next asks
    have allowed := Pool.asks_allowed safe extends' asks
    split at allowed
    · cases allowed
    · rename_i outside
      exact ⟨outside, allowed.1⟩

theorem readClients_safe : ∃ moves,
    Run PoolStep (clientPool (startOf (.ok webStartup)) readClients) moves readingPool ∧
    readingPool.holder ≠ some true ∧ readingPool.shared.libc .read = true := by
  obtain ⟨exchanges, moves, -, -, run, -⟩ := readClients_reading
  exact ⟨moves, run, (interleaving_safe webHost_begun run true).2.2 .read [4, 5000] readCharge rfl⟩

/-- Every request has an answer. -/
theorem answers (request : Request) : Nonempty request.Answer := by
  cases request with
  | libc => exact ⟨(0 : Int)⟩
  | clock => exact ⟨Timespec.zero⟩
  | nanosleep => exact ⟨()⟩
  | dlopen | dlsym => exact ⟨true⟩

/-- The threads never block each other for good: while one is unfinished, some thread can take a step,
or an access ends the process. -/
theorem interleaving_progress (begun : initEnvFromHost fuel host = some result)
    (run : Run PoolStep (clientPool (startOf result) clients) moves pool) {thread : T}
    (unfinished : pool.threads thread ≠ .done) : (∃ move next, PoolStep pool move next) ∨
      ∃ other action stop, pool.threads other = .access action ∧ action pool.shared = .error stop := by
  obtain ⟨env, -, begins⟩ := startOf_begins begun
  obtain ⟨events, base, later, exchanges, -, -, safe, extends', -⟩ :=
    Pool.serializes private' private_inside private_outside (clientPool_safe begins clients) run
  exact Pool.progress answers safe extends' unfinished

theorem readClients_progress : ∃ moves,
    Run PoolStep (clientPool (startOf (.ok webStartup)) readClients) moves readingPool ∧
    readingPool.threads true ≠ .done ∧
      ((∃ move next, PoolStep readingPool move next) ∨ ∃ other action stop,
        readingPool.threads other = .access action ∧ action readingPool.shared = .error stop) := by
  obtain ⟨exchanges, moves, -, -, run, -⟩ := readClients_reading
  have unfinished : readingPool.threads true ≠ .done := nofun
  exact ⟨moves, run, unfinished, interleaving_progress webHost_begun run unfinished⟩

/-- A registry leads every function of a whole section to its end. -/
theorem Denotes.not_sectionStops {contStr : ControllerStruct} {registry : Registry Int UInt32}
    (denotes : Denotes contStr registry) (stop : Stop) : ¬SectionStops contStr stop := by
  intro stops
  cases stops with
  | @close fd _ failed =>
      obtain ⟨next, done, -⟩ := denotes.close fd
      cases failed.symm.trans done
  | @enter flag fd count now _ failed =>
      by_cases present : isAcpSockFdPresent contStr.socStr fd = true
      · obtain ⟨port, data, dest, found⟩ := denotes.entry present
        obtain ⟨next, done, -⟩ := preOp_spec dest found (ssizeT count) flag now
        cases failed.symm.trans done
      · simp [enter, preOp, present] at failed
  | @leave flag fd moved now _ failed =>
      by_cases positive : 0 < moved
      · have dest := denotes.destPort fd
        cases named : registry.dest fd with
        | none => cases failed.symm.trans (leave_lost (dest.trans (congrArg _ named)) flag moved now)
        | some port =>
            obtain ⟨root, -, value⟩ := Registry.dest_eq_some.mp named
            obtain ⟨data, found⟩ := Option.isSome_iff_exists.mp (denotes.served root port value)
            obtain ⟨next, done, -⟩ :=
              leave_spec (dest.trans (congrArg _ named)) found flag positive now
            cases failed.symm.trans done
      · cases failed.symm.trans (leave_idle (Int.not_lt.mp positive) flag now)

/-- Behind the start of the library, clients that duplicate no descriptor never end the process, and
while one of them is unfinished, some thread can take a step. -/
theorem interleaving_crashFree (begun : initEnvFromHost fuel host = some result)
    (single : ∀ event, Taken clients event → event.duplicates = false)
    (run : Run PoolStep (clientPool (startOf result) clients) moves pool)
    (started : pool.shared.init1 = true) :
    (∀ thread action stop, pool.threads thread = .access action →
      action pool.shared ≠ .error stop) ∧
    ∀ thread, pool.threads thread ≠ .done → ∃ move next, PoolStep pool move next := by
  obtain ⟨env, registered, begins⟩ := startOf_begins begun
  obtain ⟨events, base, later, exchanges, -, follows, safe, extends', -⟩ :=
    Pool.serializes private' private_inside private_outside (clientPool_safe begins clients) run
  obtain ⟨allowed, reached⟩ := effects_reach follows
  have unended (thread : T) (action) (ending) (runs : pool.threads thread = .access action) :
      action pool.shared ≠ .error ending := by
    intro stopped
    obtain ⟨contStr, stop, found, rfl, stops⟩ :=
      (Pool.ends_allowed safe extends' runs stopped).2 started
    -- The whole sections before this one lead to a controller with a registry.
    have reachable : ReachableWithoutDup contStr := by
      have distinct : ∀ event ∈ sectionsOf events, event.duplicates = false :=
        fun event mem => single event (allowed event mem)
      rcases reached with ⟨initial, empty⟩ | ⟨begun, last, held, run⟩
      · rw [show base.shared = .initial from initial, opened_initial] at found
        obtain rfl := Option.some.inj found
        exact ⟨env, [], registered, by simp, .start⟩
      · rw [begun.opened] at found
        obtain rfl := Option.some.inj (found.symm.trans held)
        exact ⟨env, _, registered, distinct, run⟩
    obtain ⟨registry, denotes⟩ := reachable.denotes
    exact denotes.not_sectionStops stop stops
  refine ⟨unended, fun thread unfinished => ?_⟩
  rcases Pool.progress answers safe extends' unfinished with moves | ⟨other, action, stop, runs, stopped⟩
  · exact moves
  · exact absurd stopped (unended other action stop runs)

theorem readClients_crashFree : ∃ moves,
    Run PoolStep (clientPool (startOf (.ok webStartup)) readClients) moves readingPool ∧
    (∀ thread action stop, readingPool.threads thread = .access action →
      action readingPool.shared ≠ .error stop) ∧
    ∃ move next, PoolStep readingPool move next := by
  obtain ⟨exchanges, moves, -, -, run, -⟩ := readClients_reading
  obtain ⟨unended, progress⟩ :=
    interleaving_crashFree webHost_begun (fun _ => readClients_single) run rfl
  exact ⟨moves, run, unended, progress true nofun⟩

end Interleaving

end BandwidthLimiter
