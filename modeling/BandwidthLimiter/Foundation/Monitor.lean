import BandwidthLimiter.Foundation.Run
import Mathlib.Logic.Function.Basic

namespace Foundation

/-- A thread takes a lock and releases it, asks its environment, and accesses the shared state. An
access may end the whole process. -/
inductive Program (S X Q : Type) (A : Q → Type) where
  | done
  | lock (next : Program S X Q A)
  | unlock (next : Program S X Q A)
  | ask (request : Q) (next : A request → Program S X Q A)
  | access (body : S → Except X (S × Program S X Q A))

/-- The threads with their shared state and the holder of the lock. -/
@[ext] structure Pool (T S X Q : Type) (A : Q → Type) where
  shared : S
  holder : Option T
  threads : T → Program S X Q A

/-- A request with its answer. -/
structure Exchange (Q : Type) (A : Q → Type) where
  request : Q
  answer : A request

/-- A move of one thread. -/
inductive Move (T Q : Type) (A : Q → Type) where
  | lock (thread : T)
  | unlock (thread : T)
  | ask (thread : T) (exchange : Exchange Q A)
  | access (thread : T)

/-- A locked section as a whole, with its exchanges, or an exchange outside of sections. -/
inductive SerialEvent (T E Q : Type) (A : Q → Type) where
  | locked (thread : T) (event : E) (exchanges : List (Exchange Q A))
  | ask (thread : T) (exchange : Exchange Q A)

/-- What the threads agree on: a property of the shared state outside the locked sections, the effect
of a section on the state and on the role of its thread, what a section keeps at every moment, the
requests inside and outside of it with the roles behind them, and how an access ends the process. -/
structure Contract (S X E Q R : Type) (A : Q → Type) where
  invariant : S → Prop
  effect : S → R → E → List (Exchange Q A) → S → R → Prop
  keeps : S → S → Prop
  inside : Q → Prop
  outside : R → Q → S → Prop
  answered : R → Exchange Q A → R
  ends : S → S → X → Prop
  keeps_refl : ∀ shared, keeps shared shared

variable {T S X Q E R : Type} {A : Q → Type} [DecidableEq T]

/-- The exchange of a move with its thread. -/
def Move.asks : Move T Q A → List (T × Exchange Q A)
  | .ask thread exchange => [(thread, exchange)]
  | _ => []

/-- The exchanges of a section or the exchange outside of sections, with the thread. -/
def SerialEvent.asks : SerialEvent T E Q A → List (T × Exchange Q A)
  | .locked thread _ exchanges => exchanges.map (thread, ·)
  | .ask thread exchange => [(thread, exchange)]

/-- The inner exchanges of two lists are the same, and so are the outer ones. -/
def SameAsks (inner : Exchange Q A → Bool) (first second : List (T × Exchange Q A)) : Prop :=
  ∀ side, first.filter (inner ·.2 == side) = second.filter (inner ·.2 == side)

/-- The program of one thread is replaced. -/
def Pool.become (pool : Pool T S X Q A) (thread : T) (next : Program S X Q A) : Pool T S X Q A :=
  { pool with threads := Function.update pool.threads thread next }

/-- The threads move in any order. The lock itself does not check who releases it, and nothing but
the programs keeps a thread from an access without the lock. -/
inductive PoolStep : Pool T S X Q A → Move T Q A → Pool T S X Q A → Prop where
  | lock {pool : Pool T S X Q A} {thread : T} {next : Program S X Q A}
      (waits : pool.threads thread = .lock next) (free : pool.holder = none) :
      PoolStep pool (.lock thread) { pool.become thread next with holder := some thread }
  | unlock {pool : Pool T S X Q A} {thread : T} {next : Program S X Q A}
      (leaves : pool.threads thread = .unlock next) :
      PoolStep pool (.unlock thread) { pool.become thread next with holder := none }
  | ask {pool : Pool T S X Q A} {thread : T} {request : Q} {next : A request → Program S X Q A}
      (asks : pool.threads thread = .ask request next) (answer : A request) :
      PoolStep pool (.ask thread ⟨request, answer⟩) (pool.become thread (next answer))
  | access {pool : Pool T S X Q A} {thread : T} {body : S → Except X (S × Program S X Q A)}
      {shared : S} {next : Program S X Q A} (runs : pool.threads thread = .access body)
      (completes : body pool.shared = .ok (shared, next)) :
      PoolStep pool (.access thread) { pool.become thread next with shared }

namespace Program

/-- The program runs for a while without its lock moves, and no other thread accesses the state. -/
inductive Alone (start : S) (body : Program S X Q A) :
    List (Exchange Q A) → S → Program S X Q A → Prop where
  | start : Alone start body [] start body
  | ask {exchanges : List (Exchange Q A)} {shared : S} {request : Q}
      {next : A request → Program S X Q A} (before : Alone start body exchanges shared (.ask request next))
      (answer : A request) : Alone start body (exchanges ++ [⟨request, answer⟩]) shared (next answer)
  | access {exchanges : List (Exchange Q A)} {shared later : S} {next : Program S X Q A}
      {action : S → Except X (S × Program S X Q A)}
      (before : Alone start body exchanges shared (.access action))
      (completes : action shared = .ok (later, next)) : Alone start body exchanges later next

theorem Alone.trans {start middle last : S} {first second third : Program S X Q A}
    {before' after' : List (Exchange Q A)} (before : first.Alone start before' middle second)
    (after : second.Alone middle after' last third) :
    first.Alone start (before' ++ after') last third := by
  induction after with
  | start => simpa using before
  | ask _ answer ih => simpa using ih.ask answer
  | access _ completes ih => exact ih.access completes

/-- A program inside its section: the requests and the states meet conditions, and the section ends
with a release of the lock. The list holds the exchanges of the section so far. -/
inductive Within (inside : Q → Prop) (ends : S → X → Prop) (good : S → Prop)
    (post : List (Exchange Q A) → S → Program S X Q A → Prop) :
    List (Exchange Q A) → S → Program S X Q A → Prop where
  | unlock {exchanges : List (Exchange Q A)} {shared : S} {next : Program S X Q A}
      (left : post exchanges shared next) :
      Within inside ends good post exchanges shared (.unlock next)
  | ask {exchanges : List (Exchange Q A)} {shared : S} {request : Q}
      {next : A request → Program S X Q A} (allowed : inside request)
      (rest : ∀ answer,
        Within inside ends good post (exchanges ++ [⟨request, answer⟩]) shared (next answer)) :
      Within inside ends good post exchanges shared (.ask request next)
  | access {exchanges : List (Exchange Q A)} {shared : S}
      {body : S → Except X (S × Program S X Q A)}
      (ending : ∀ stop, body shared = .error stop → ends shared stop)
      (kept : ∀ later next, body shared = .ok (later, next) → good later)
      (rest : ∀ later next, body shared = .ok (later, next) →
        Within inside ends good post exchanges later next) :
      Within inside ends good post exchanges shared (.access body)

section Within

variable {inside : Q → Prop} {ends : S → X → Prop} {good : S → Prop}
  {post : List (Exchange Q A) → S → Program S X Q A → Prop} {exchanges more : List (Exchange Q A)}
  {shared later : S} {program next : Program S X Q A}

/-- The conditions stay true while the holder runs. -/
theorem Within.alone (within : Within inside ends good post exchanges shared program)
    (initial : good shared) (alone : Alone shared program more later next) :
    good later ∧ Within inside ends good post (exchanges ++ more) later next := by
  induction alone with
  | start => exact ⟨initial, by simpa using within⟩
  | ask _ answer ih =>
      obtain ⟨kept, within⟩ := ih
      cases within with
      | ask _ rest => exact ⟨kept, by simpa using rest answer⟩
  | access _ completes ih =>
      cases ih.2 with
      | access _ kept rest => exact ⟨kept _ _ completes, rest _ _ completes⟩

/-- The requests of the holder are those inside. -/
theorem Within.asked (within : Within inside ends good post exchanges shared program)
    (initial : good shared) (alone : Alone shared program more later next) :
    ∀ exchange ∈ more, inside exchange.request := by
  induction alone with
  | start => simp
  | ask before answer ih =>
      intro exchange mem
      rcases List.mem_append.mp mem with mem | mem
      · exact ih exchange mem
      · obtain rfl := List.mem_singleton.mp mem
        cases (within.alone initial before).2 with
        | ask allowed _ => exact allowed
  | access _ _ ih => exact ih

theorem Within.left (within : Within inside ends good post exchanges shared (.unlock next)) :
    post exchanges shared next := by
  cases within with
  | unlock left => exact left

/-- A weaker condition on the end of the section. -/
theorem Within.mono {weaker : List (Exchange Q A) → S → Program S X Q A → Prop}
    (within : Within inside ends good post exchanges shared program)
    (implied : ∀ exchanges shared next, post exchanges shared next → weaker exchanges shared next) :
    Within inside ends good weaker exchanges shared program := by
  induction within with
  | unlock left => exact .unlock (implied _ _ _ left)
  | ask allowed _ ih => exact .ask allowed ih
  | access ending kept _ ih => exact .access ending kept ih

/-- An access that completes in one way. -/
theorem Within.access_ok {body : S → Except X (S × Program S X Q A)}
    (completes : body shared = .ok (later, next)) (kept : good later)
    (rest : Within inside ends good post exchanges later next) :
    Within inside ends good post exchanges shared (.access body) := by
  apply Within.access
  · intro stop stopped
    cases completes.symm.trans stopped
  · intro other program same
    cases completes.symm.trans same
    exact kept
  · intro other program same
    cases completes.symm.trans same
    exact rest

/-- An access that ends the process has no further conditions. -/
theorem Within.access_error {body : S → Except X (S × Program S X Q A)} {stop : X}
    (stopped : body shared = .error stop) (allowed : ends shared stop) :
    Within inside ends good post exchanges shared (.access body) := by
  apply Within.access
  · intro other same
    cases stopped.symm.trans same
    exact allowed
  all_goals
    intro later next same
    cases stopped.symm.trans same

end Within

variable (contract : Contract S X E Q R A)

/-- A fact that no section of another thread takes back. -/
def Stable (fact : S → Prop) : Prop :=
  ∀ shared later, fact shared → contract.keeps shared later → fact later

/-- A thread outside its sections follows the contract in a role and under a fact about the shared
state. -/
inductive Behaves : R → (S → Prop) → Program S X Q A → Prop where
  | done {role : R} {fact : S → Prop} : Behaves role fact .done
  | ask {role : R} {fact : S → Prop} {request : Q} {next : A request → Program S X Q A}
      (allowed : ∀ shared, fact shared → contract.outside role request shared)
      (rest : ∀ answer, Behaves (contract.answered role ⟨request, answer⟩) fact (next answer)) :
      Behaves role fact (.ask request next)
  | lock {role : R} {fact after : S → Prop} {body : Program S X Q A} {Rest : R → Program S X Q A → Prop}
      (stable : Stable contract after)
      (within : ∀ shared, contract.invariant shared → fact shared →
        Within contract.inside (contract.ends shared) (contract.keeps shared)
          (fun exchanges later next => contract.invariant later ∧ after later ∧
            ∃ event role', contract.effect shared role event exchanges later role' ∧ Rest role' next)
          [] shared body)
      (rest : ∀ role next, Rest role next → Behaves role after next) : Behaves role fact (.lock body)

variable {contract} in
/-- A program that follows the contract under a fact follows it under a stronger one. -/
theorem Behaves.mono {role : R} {fact stronger : S → Prop} {program : Program S X Q A}
    (behaves : program.Behaves contract role fact) (implied : ∀ shared, stronger shared → fact shared) :
    program.Behaves contract role stronger := by
  induction behaves with
  | done => exact .done
  | ask allowed _ ih =>
      exact .ask (fun shared holds => allowed _ (implied _ holds)) fun answer => ih answer implied
  | lock stable within rest _ =>
      exact .lock stable (fun shared invariant holds => within _ invariant (implied _ holds)) rest

end Program

/-- A locked section of a thread is one step, and the only requests are those outside of sections. -/
inductive SerialStep : Pool T S X Q A → SerialEvent T E Q A → Pool T S X Q A → Prop where
  | locked {pool : Pool T S X Q A} {thread : T} {body next : Program S X Q A} {shared : S}
      {exchanges : List (Exchange Q A)} (waits : pool.threads thread = .lock body)
      (alone : body.Alone pool.shared exchanges shared (.unlock next)) (event : E) :
      SerialStep pool (.locked thread event exchanges) { pool.become thread next with shared }
  | ask {pool : Pool T S X Q A} {thread : T} {request : Q} {next : A request → Program S X Q A}
      (asks : pool.threads thread = .ask request next) (answer : A request) :
      SerialStep pool (.ask thread ⟨request, answer⟩) (pool.become thread (next answer))

variable (contract : Contract S X E Q R A)

/-- The steps that the contract allows, on the shared state and the roles of the threads. -/
inductive RoleStep : S × (T → R) → SerialEvent T E Q A → S × (T → R) → Prop where
  | locked {shared later : S} {roles : T → R} {thread : T} {event : E}
      {exchanges : List (Exchange Q A)} {role : R}
      (effect : contract.effect shared (roles thread) event exchanges later role) :
      RoleStep (shared, roles) (.locked thread event exchanges)
        (later, Function.update roles thread role)
  | ask {shared : S} {roles : T → R} {thread : T} {exchange : Exchange Q A}
      (allowed : contract.outside (roles thread) exchange.request shared) :
      RoleStep (shared, roles) (.ask thread exchange)
        (shared, Function.update roles thread (contract.answered (roles thread) exchange))

/-- A thread outside its sections follows the contract under a fact that is true now. -/
def Program.Ready (shared : S) (role : R) (program : Program S X Q A) : Prop :=
  ∃ fact, Program.Stable contract fact ∧ fact shared ∧ program.Behaves contract role fact

variable {contract} in
/-- A fact of another thread survives a section and each part of it. -/
theorem Program.Ready.kept {program : Program S X Q A} {shared later : S} {role : R}
    (ready : program.Ready contract shared role) (keeps : contract.keeps shared later) :
    program.Ready contract later role := by
  obtain ⟨fact, stable, holds, behaves⟩ := ready
  exact ⟨fact, stable, stable _ _ holds keeps, behaves⟩

namespace Pool

/-- No section is under way, and every thread follows the contract in its role. -/
structure Safe (pool : Pool T S X Q A) (roles : T → R) : Prop where
  free : pool.holder = none
  invariant : contract.invariant pool.shared
  ready : ∀ thread, (pool.threads thread).Ready contract pool.shared (roles thread)

/-- A pool inside a section extends a serial pool by a part of the section of the holder. -/
def Extends (pool base : Pool T S X Q A) (part : List (T × Exchange Q A)) : Prop :=
  match pool.holder with
  | none => pool = base ∧ part = []
  | some thread => ∃ body exchanges, base.threads thread = .lock body ∧
      body.Alone base.shared exchanges pool.shared (pool.threads thread) ∧
      part = exchanges.map (thread, ·) ∧
      ∀ other, other ≠ thread → pool.threads other = base.threads other

section Become

variable {pool base : Pool T S X Q A} {thread other : T} {next : Program S X Q A}
  {part : List (T × Exchange Q A)}

omit [DecidableEq T] in
theorem extends_free (free : pool.holder = none) :
    pool.Extends base part ↔ pool = base ∧ part = [] := by
  rw [Extends, free]

omit [DecidableEq T] in
theorem extends_held (held : pool.holder = some thread) : pool.Extends base part ↔
    ∃ body exchanges, base.threads thread = .lock body ∧
      body.Alone base.shared exchanges pool.shared (pool.threads thread) ∧
      part = exchanges.map (thread, ·) ∧
      ∀ other, other ≠ thread → pool.threads other = base.threads other := by
  rw [Extends, held]

@[simp] theorem shared_become : (pool.become thread next).shared = pool.shared := rfl

@[simp] theorem holder_become : (pool.become thread next).holder = pool.holder := rfl

@[simp] theorem threads_become_self : (pool.become thread next).threads thread = next := by
  simp [become]

theorem threads_become_of_ne (different : other ≠ thread) :
    (pool.become thread next).threads other = pool.threads other := by
  simp [become, different]

end Become

variable {contract} {pool base next : Pool T S X Q A} {thread : T} {body : Program S X Q A}
  {roles : T → R} {exchanges : List (Exchange Q A)} {part : List (T × Exchange Q A)}

section Safe

omit [DecidableEq T]

/-- A thread outside its sections is not about to release the lock. -/
theorem Safe.ready_unlock (safe : base.Safe contract roles) : base.threads thread ≠ .unlock body := by
  intro leaves
  obtain ⟨fact, -, -, behaves⟩ := safe.ready thread
  rw [leaves] at behaves
  cases behaves

/-- A thread outside its sections is not about to access the shared state. -/
theorem Safe.ready_access (safe : base.Safe contract roles)
    {action : S → Except X (S × Program S X Q A)} : base.threads thread ≠ .access action := by
  intro runs
  obtain ⟨fact, -, -, behaves⟩ := safe.ready thread
  rw [runs] at behaves
  cases behaves

theorem Safe.ready_ask (safe : base.Safe contract roles) {request : Q}
    {next : A request → Program S X Q A} (asks : base.threads thread = .ask request next) :
    contract.outside (roles thread) request base.shared ∧
      ∀ answer, (next answer).Ready contract base.shared
        (contract.answered (roles thread) ⟨request, answer⟩) := by
  obtain ⟨fact, stable, holds, behaves⟩ := safe.ready thread
  rw [asks] at behaves
  cases behaves with
  | ask allowed rest => exact ⟨allowed _ holds, fun answer => ⟨fact, stable, holds, rest answer⟩⟩

/-- A section that starts now keeps the conditions of the contract to its end. -/
theorem Safe.ready_lock (safe : base.Safe contract roles) (waits : base.threads thread = .lock body) :
    Program.Within contract.inside (contract.ends base.shared) (contract.keeps base.shared)
      (fun exchanges later next => contract.invariant later ∧
        ∃ event role, contract.effect base.shared (roles thread) event exchanges later role ∧
          next.Ready contract later role) [] base.shared body := by
  obtain ⟨fact, -, holds, behaves⟩ := safe.ready thread
  rw [waits] at behaves
  cases behaves with
  | @lock _ _ after _ _ stable within rest =>
      apply (within _ safe.invariant holds).mono
      rintro exchanges later next ⟨invariant, fact, event, role, effect, follows⟩
      exact ⟨invariant, event, role, effect, after, stable, fact, rest role next follows⟩

end Safe

/-- A section to its end is a step of the contract. -/
theorem Safe.locked {shared : S} {after : Program S X Q A} (safe : base.Safe contract roles)
    (waits : base.threads thread = .lock body)
    (alone : body.Alone base.shared exchanges shared (.unlock after)) :
    ∃ event later, RoleStep contract (base.shared, roles) (.locked thread event exchanges)
        (shared, later) ∧ { base.become thread after with shared }.Safe contract later := by
  obtain ⟨keeps, within⟩ := (safe.ready_lock waits).alone (contract.keeps_refl _) alone
  obtain ⟨invariant, event, role, effect, ready⟩ := within.left
  refine ⟨event, _, .locked effect, safe.free, invariant, fun other => ?_⟩
  by_cases same : other = thread
  · subst same
    simpa using ready
  · simpa [threads_become_of_ne same, same] using (safe.ready other).kept keeps

theorem Safe.ask {request : Q} {after : A request → Program S X Q A}
    (safe : base.Safe contract roles) (asks : base.threads thread = .ask request after)
    (answer : A request) : ∃ later,
      RoleStep contract (base.shared, roles) (.ask thread ⟨request, answer⟩) (base.shared, later) ∧
        (base.become thread (after answer)).Safe contract later := by
  obtain ⟨allowed, ready⟩ := safe.ready_ask asks
  refine ⟨_, .ask allowed, safe.free, safe.invariant, fun other => ?_⟩
  by_cases same : other = thread
  · subst same
    simpa using ready answer
  · simpa [threads_become_of_ne same, same] using safe.ready other

section Serial

variable (inner : Exchange Q A → Bool)
  (private' : ∀ exchange, contract.inside exchange.request → inner exchange = true)
  (public' : ∀ role exchange shared, contract.outside role exchange.request shared →
    inner exchange = false)

include private' public'

/-- Each move of the pool is part of a section, or it is a step of the serial pool. The exchanges of
each kind keep their order. -/
theorem Extends.step {move : Move T Q A} (safe : base.Safe contract roles)
    (extends' : pool.Extends base part) (taken : PoolStep pool move next) :
    ∃ events after later rest, Run SerialStep base events after ∧
      Run (RoleStep contract) (base.shared, roles) events (after.shared, later) ∧
      after.Safe contract later ∧ next.Extends after rest ∧
      SameAsks inner (part ++ move.asks) (events.flatMap SerialEvent.asks ++ rest) := by
  cases holder : pool.holder with
  | none =>
      obtain ⟨rfl, rfl⟩ := (extends_free holder).mp extends'
      cases taken with
      | @lock thread body waits free =>
          refine ⟨[], pool, roles, [], .start, .start, safe,
            (extends_held rfl).mpr ⟨body, [], waits, ?_, rfl, fun other different => ?_⟩, fun _ => rfl⟩
          · simpa using .start
          · exact threads_become_of_ne different
      | unlock leaves => exact absurd leaves safe.ready_unlock
      | ask asks answer =>
          obtain ⟨later, step, kept⟩ := safe.ask asks answer
          exact ⟨[.ask _ ⟨_, answer⟩], _, later, [], .step .start (.ask asks answer),
            .step .start step, kept, (extends_free (holder_become.trans holder)).mpr ⟨rfl, rfl⟩,
            fun _ => by simp [Move.asks, SerialEvent.asks]⟩
      | access runs => exact absurd runs safe.ready_access
  | some holding =>
      obtain ⟨body, exchanges, waits, alone, rfl, others⟩ := (extends_held holder).mp extends'
      cases taken with
      | lock waits free => exact absurd (holder.symm.trans free) (by simp)
      | @unlock thread after leaves =>
          by_cases same : thread = holding
          · subst same
            rw [leaves] at alone
            obtain ⟨event, later, step, kept⟩ := safe.locked waits alone
            refine ⟨[.locked thread event exchanges], _, later, [],
              .step .start (.locked waits alone event), .step .start step, kept,
              (extends_free rfl).mpr ⟨Pool.ext rfl safe.free.symm ?_, rfl⟩,
              fun _ => by simp [Move.asks, SerialEvent.asks]⟩
            funext other
            by_cases same : other = thread
            · simp [become, same]
            · simpa [become, same] using others other same
          · exact absurd (others thread same ▸ leaves) safe.ready_unlock
      | @ask thread request after asks answer =>
          by_cases same : thread = holding
          · subst same
            rw [asks] at alone
            refine ⟨[], base, roles, _, .start, .start, safe,
              (extends_held (holder_become.trans holder)).mpr ⟨body, exchanges ++ [⟨request, answer⟩],
              waits, ?_, rfl,
              fun other different => (threads_become_of_ne different).trans (others other different)⟩,
              fun _ => by simp [Move.asks]⟩
            simpa using alone.ask answer
          · have waiting := (others thread same).symm.trans asks
            obtain ⟨later, step, kept⟩ := safe.ask waiting answer
            have outer := public' _ ⟨request, answer⟩ _ (safe.ready_ask waiting).1
            have inners := (safe.ready_lock waits).asked (contract.keeps_refl _) alone
            refine ⟨[.ask thread ⟨request, answer⟩], _, later, _, .step .start (.ask waiting answer),
              .step .start step, kept, (extends_held (holder_become.trans holder)).mpr
                ⟨body, exchanges, ?_, ?_, rfl, fun other different => ?_⟩, fun side => ?_⟩
            · rw [threads_become_of_ne (Ne.symm same), waits]
            · simpa [threads_become_of_ne (Ne.symm same)] using alone
            · by_cases equal : other = thread
              · simp [equal]
              · rw [threads_become_of_ne equal, threads_become_of_ne equal, others other different]
            · -- The exchange outside goes before those of the section, which are of the other kind.
              cases side with
              | true => simp [Move.asks, SerialEvent.asks, outer]
              | false =>
                  have none' : (exchanges.map (holding, ·)).filter (inner ·.2 == false) = [] := by
                    rw [List.filter_eq_nil_iff]
                    intro ask mem
                    obtain ⟨exchange, inside, rfl⟩ := List.mem_map.mp mem
                    simp [private' exchange (inners exchange inside)]
                  simp only [List.flatMap_singleton, Move.asks, SerialEvent.asks, List.filter_append,
                    none', List.nil_append, List.append_nil]
      | @access thread action shared after runs completes =>
          by_cases same : thread = holding
          · subst same
            rw [runs] at alone
            have held : { pool.become thread after with shared }.holder = some thread := holder
            refine ⟨[], base, roles, _, .start, .start, safe,
              (extends_held held).mpr ⟨body, exchanges, waits, ?_, rfl,
              fun other different => (threads_become_of_ne different).trans (others other different)⟩,
              fun _ => by simp [Move.asks]⟩
            simpa [become] using alone.access completes
          · exact absurd (others thread same ▸ runs) safe.ready_access

variable {start : Pool T S X Q A} {moves : List (Move T Q A)}

/-- Every run of the threads is a serial run of the same threads with a part of one section, and the
contract allows its steps. -/
theorem serializes (safe : start.Safe contract roles) (run : Run PoolStep start moves pool) :
    ∃ events base later part, Run SerialStep start events base ∧
      Run (RoleStep contract) (start.shared, roles) events (base.shared, later) ∧
      base.Safe contract later ∧ pool.Extends base part ∧
      SameAsks inner (moves.flatMap Move.asks) (events.flatMap SerialEvent.asks ++ part) := by
  apply run.history (fun moves pool => ∃ events base later part, Run SerialStep start events base ∧
    Run (RoleStep contract) (start.shared, roles) events (base.shared, later) ∧
    base.Safe contract later ∧ pool.Extends base part ∧
    SameAsks inner (moves.flatMap Move.asks) (events.flatMap SerialEvent.asks ++ part))
    ⟨[], start, roles, [], .start, .start, safe, (extends_free safe.free).mpr ⟨rfl, rfl⟩, fun _ => rfl⟩
  rintro moves pool move next ⟨events, base, later, part, serial, allowed, safe, extends', order⟩ taken
  obtain ⟨more, after, last, rest, steps, follows, kept, extends', same⟩ :=
    extends'.step inner private' public' safe taken
  refine ⟨events ++ more, after, last, rest, serial.append steps, allowed.append follows, kept,
    extends', fun side => ?_⟩
  have before := order side
  have step := same side
  simp only [List.flatMap_append, List.filter_append, List.flatMap_singleton] at before step ⊢
  rw [before, List.append_assoc, step, List.append_assoc]

end Serial

variable {start : Pool T S X Q A}

/-- A thread can run alone whatever the others wait for. -/
theorem alone_moves {later : S} {after : Program S X Q A} (reads : pool.threads thread = body)
    (alone : body.Alone pool.shared exchanges later after) : ∃ moves, Run PoolStep pool moves
      ⟨later, pool.holder, Function.update pool.threads thread after⟩ ∧
        moves.flatMap Move.asks = exchanges.map (thread, ·) := by
  induction alone with
  | start =>
      rw [← reads, Function.update_eq_self]
      exact ⟨[], .start, rfl⟩
  | @ask exchanges shared request next _ answer ih =>
      obtain ⟨moves, run, same⟩ := ih
      have taken := run.step (.ask (Function.update_self ..) answer)
      exact ⟨_, by simpa [become] using taken, by simp [same, Move.asks]⟩
  | access _ completes ih =>
      obtain ⟨moves, run, same⟩ := ih
      have taken := run.step (.access (Function.update_self ..) completes)
      exact ⟨_, by simpa [become] using taken, by simp [same, Move.asks]⟩

/-- Every serial step is a run of the threads with the same exchanges. -/
theorem serialStep_unfolds {event : SerialEvent T E Q A} (free : base.holder = none)
    (taken : SerialStep base event next) :
    ∃ moves, Run PoolStep base moves next ∧ moves.flatMap Move.asks = event.asks := by
  cases taken with
  | @locked thread body after shared exchanges waits alone event =>
      have locked : PoolStep base (.lock thread) _ := .lock waits free
      have reads : { base.become thread body with holder := some thread }.threads thread = body :=
        threads_become_self
      obtain ⟨moves, run, same⟩ := alone_moves reads alone
      have left := run.step (.unlock (Function.update_self ..))
      have whole := Run.cons locked left
      exact ⟨_, by simpa [become, free] using whole, by simp [same, Move.asks, SerialEvent.asks]⟩
  | ask asks answer => exact ⟨_, .step .start (.ask asks answer), rfl⟩

/-- Only the holder of the lock accesses the shared state or releases the lock. -/
theorem access_holder (safe : base.Safe contract roles) (extends' : pool.Extends base part)
    (inside : (∃ action, pool.threads thread = .access action) ∨
      ∃ next, pool.threads thread = .unlock next) : pool.holder = some thread := by
  have outside (same : pool.threads thread = base.threads thread) : False := by
    rcases inside with ⟨action, runs⟩ | ⟨next, leaves⟩
    · exact safe.ready_access (same ▸ runs)
    · exact safe.ready_unlock (same ▸ leaves)
  cases holder : pool.holder with
  | none =>
      obtain ⟨rfl, -⟩ := (extends_free holder).mp extends'
      exact (outside rfl).elim
  | some holding =>
      obtain ⟨body, exchanges, waits, alone, -, others⟩ := (extends_held holder).mp extends'
      by_cases same : thread = holding
      · rw [same]
      · exact (outside (others thread same)).elim

/-- The holder makes the requests of a section, and all other requests are those outside. -/
theorem asks_allowed {request : Q} {next : A request → Program S X Q A}
    (safe : base.Safe contract roles) (extends' : pool.Extends base part)
    (asks : pool.threads thread = .ask request next) :
    if pool.holder = some thread then contract.inside request
    else contract.outside (roles thread) request pool.shared := by
  cases holder : pool.holder with
  | none =>
      obtain ⟨rfl, -⟩ := (extends_free holder).mp extends'
      simpa using (safe.ready_ask asks).1
  | some holding =>
      obtain ⟨body, exchanges, waits, alone, -, others⟩ := (extends_held holder).mp extends'
      obtain ⟨keeps, within⟩ := (safe.ready_lock waits).alone (contract.keeps_refl _) alone
      by_cases same : thread = holding
      · subst same
        rw [asks] at within
        rw [if_pos rfl]
        cases within with
        | ask allowed _ => exact allowed
      · rw [if_neg fun equal => same (Option.some.inj equal).symm]
        obtain ⟨fact, stable, holds, behaves⟩ := (safe.ready thread).kept keeps
        rw [← others thread same, asks] at behaves
        cases behaves with
        | ask allowed _ => exact allowed _ holds

/-- An access ends the process in the agreed ways only. -/
theorem ends_allowed {action : S → Except X (S × Program S X Q A)} {stop : X}
    (safe : base.Safe contract roles) (extends' : pool.Extends base part)
    (runs : pool.threads thread = .access action) (stopped : action pool.shared = .error stop) :
    contract.ends base.shared pool.shared stop := by
  have holder := access_holder safe extends' (.inl ⟨action, runs⟩)
  obtain ⟨body, exchanges, waits, alone, -⟩ := (extends_held holder).mp extends'
  have within := ((safe.ready_lock waits).alone (contract.keeps_refl _) alone).2
  rw [runs] at within
  cases within with
  | access ending _ _ => exact ending stop stopped

/-- A pool with unfinished threads moves on, unless an access ends the process. -/
theorem progress (answers : ∀ request : Q, Nonempty (A request)) (safe : base.Safe contract roles)
    (extends' : pool.Extends base part) (unfinished : pool.threads thread ≠ .done) :
    (∃ move next, PoolStep pool move next) ∨
      ∃ other action stop, pool.threads other = .access action ∧ action pool.shared = .error stop := by
  -- The holder of the lock can always go on; without a holder any thread can.
  obtain ⟨other, active, waits⟩ : ∃ other, pool.threads other ≠ .done ∧
      ∀ body, pool.threads other = .lock body → pool.holder = none := by
    cases holder : pool.holder with
    | none => exact ⟨thread, unfinished, fun _ _ => rfl⟩
    | some holding =>
        obtain ⟨body, exchanges, waits, alone, -, others⟩ := (extends_held holder).mp extends'
        have within := ((safe.ready_lock waits).alone (contract.keeps_refl _) alone).2
        refine ⟨holding, fun finished => ?_, fun body locked => ?_⟩
        · rw [finished] at within
          cases within
        · rw [locked] at within
          cases within
  cases program : pool.threads other with
  | done => exact absurd program active
  | lock body => exact .inl ⟨_, _, .lock program (waits body program)⟩
  | unlock next => exact .inl ⟨_, _, .unlock program⟩
  | ask request next =>
      obtain ⟨answer⟩ := answers request
      exact .inl ⟨_, _, .ask program answer⟩
  | access action =>
      cases result : action pool.shared with
      | error stop => exact .inr ⟨other, action, stop, program, result⟩
      | ok pair => exact .inl ⟨_, _, .access program result⟩

end Pool

end Foundation
