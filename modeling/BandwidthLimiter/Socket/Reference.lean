import BandwidthLimiter.Foundation.Counted
import BandwidthLimiter.Foundation.Run
import BandwidthLimiter.Socket.Store

namespace BandwidthLimiter
open Foundation

/-- The reference model of the store: roots with a port and a counter, and connections. -/
abbrev Reference := Counted Int UInt32

/-- The operations of the store without the copy of a descriptor. -/
inductive StoreOp where
  | initSock (sockDes : Int) (port : UInt32)
  | registerSock (orgSocketFd listenSockFd : Int)
  | unregister (acpSockFd : Int)
  deriving DecidableEq, Repr

namespace StoreOp

def perform (soS : SockStruct) : StoreOp → Except Stop (SockStruct × Bool)
  | .initSock sockDes port => .ok (BandwidthLimiter.initSock soS sockDes port)
  | .registerSock org listen => .ok (BandwidthLimiter.registerSock soS org listen)
  | .unregister fd => unregisterSocketDescriptor soS fd

/-- What the operation does in the reference model. -/
def reference (model : Reference) : StoreOp → Reference × Bool
  | .initSock sockDes port => model.create sockDes port
  | .registerSock org listen => model.link org listen
  | .unregister fd => (model.unlink fd, true)

/-- The operation meets a duplicate, a missing root or an absent descriptor. -/
def Refused (model : Reference) : StoreOp → Prop
  | .initSock sockDes _ => sockDes ∈ model.roots
  | .registerSock org listen => org ∉ model.roots ∨ listen ∈ model.conns
  | .unregister fd => fd ∉ model.conns

/-- The operation removes the last connection of the root. -/
def RemovesLast (model : Reference) (root : Int) (op : StoreOp) : Prop :=
  ∃ fd, op = .unregister fd ∧ model.Last fd root

end StoreOp

/-- The events of a run are the operations with their results. -/
def StoreStep (soS : SockStruct) (event : StoreOp × Bool) (next : SockStruct) : Prop :=
  event.1.perform soS = .ok (next, event.2)

def ReferenceStep (model : Reference) (event : StoreOp × Bool) (next : Reference) : Prop :=
  event.1.reference model = (next, event.2)

/-- The port of the latest `init_sock` that created an entry for the root. -/
def createdPort (root : Int) (events : List (StoreOp × Bool)) : Option UInt32 :=
  events.foldl (fun found event => match event with
    | (.initSock sockDes port, true) => if sockDes = root then some port else found
    | _ => found) none

/-- The two trees hold the two maps of the model. -/
structure Refers (soS : SockStruct) (model : Reference) : Prop where
  keyed : soS.Keyed
  roots : ∀ fd, soS.sockRb.get fd =
    (model.roots.lookup fd).map fun entry => ⟨entry.1, entry.2⟩
  conns : ∀ fd, (soS.acpSocketRb.get fd).map AcpSocketFdStruct.rootFdNumber = model.conns.lookup fd

/-- After the events the store agrees with the model in every lookup and in every next operation. -/
structure Refines (events : List (StoreOp × Bool)) (soS : SockStruct) (model : Reference) :
    Prop where
  refers : Refers soS model
  present : ∀ fd, isAcpSockFdPresent soS fd = true ↔ fd ∈ model.conns
  destPort : ∀ fd root, model.conns.lookup fd = some root →
    ∃ port, createdPort root events = some port ∧ getDestPort soS fd = .ok (some port)
  disappears : ∀ (op : StoreOp) (root : Int), soS.sockRb.get root ≠ none → ∃ next result,
    op.perform soS = .ok (next, result) ∧
      (next.sockRb.get root = none ↔ op.RemovesLast model root)
  refused : ∀ op : StoreOp, op.Refused model → op.perform soS = .ok (soS, (op.reference model).2)

theorem createdPort_snoc (root : Int) (events : List (StoreOp × Bool)) (event : StoreOp × Bool) :
    createdPort root (events ++ [event]) = match event with
      | (.initSock sockDes port, true) =>
          if sockDes = root then some port else createdPort root events
      | _ => createdPort root events := by
  simp [createdPort, List.foldl_append]

namespace Refers

variable {soS : SockStruct} {model : Reference} {fd root : Int}

theorem setup : Refers setupSockEnv .empty :=
  ⟨⟨RbTree.unique_create, RbTree.unique_create⟩, by simp [setupSockEnv, Counted.empty],
    by simp [setupSockEnv, Counted.empty]⟩

theorem root_none_iff (refers : Refers soS model) :
    soS.sockRb.get fd = none ↔ model.roots.lookup fd = none := by
  rw [refers.roots, Option.map_eq_none_iff]

theorem conn_none_iff (refers : Refers soS model) :
    soS.acpSocketRb.get fd = none ↔ model.conns.lookup fd = none := by
  rw [← refers.conns, Option.map_eq_none_iff]

/-- A connection of the model is a connection of the store with a root that counts it. -/
theorem conn_of (refers : Refers soS model) (named : model.conns.lookup fd = some root) :
    ∃ acp port count, soS.acpSocketRb.get fd = some acp ∧ acp.rootFdNumber = root ∧
      model.roots.lookup root = some (port, count) ∧ 1 ≤ count ∧
      soS.sockRb.get root = some ⟨port, count⟩ := by
  obtain ⟨acp, conn, named⟩ := Option.map_eq_some_iff.mp ((refers.conns fd).trans named)
  obtain ⟨port, count, found, positive⟩ := Counted.root_of
    ((refers.conns fd).symm.trans (Option.map_eq_some_iff.mpr ⟨acp, conn, named⟩))
  exact ⟨acp, port, count, conn, named, found, positive, by rw [refers.roots, found]; rfl⟩

/-- The trees after a new root represent the model with this root. -/
theorem initSock (refers : Refers soS model) (fd : Int) (port : UInt32) :
    Refers (initSock soS fd port).1 (model.create fd port).1 ∧
      (BandwidthLimiter.initSock soS fd port).2 = (model.create fd port).2 := by
  cases absent : model.roots.lookup fd with
  | some entry =>
      have present : soS.sockRb.get fd = some ⟨entry.1, entry.2⟩ := by
        rw [refers.roots, absent]
        rfl
      rw [initSock_old present, Counted.create_old (Finmap.mem_of_lookup_eq_some absent)]
      exact ⟨refers, rfl⟩
  | none =>
      obtain ⟨next, done, keyed, roots, conns⟩ :=
        initSock_spec refers.keyed (refers.root_none_iff.mpr absent) port
      rw [done, Counted.create_new absent]
      refine ⟨⟨keyed, fun q => ?_, fun q => ?_⟩, rfl⟩
      · rw [roots, Counted.withRoot, lookup_insert_ite, refers.roots]
        split <;> rfl
      · rw [conns]
        exact refers.conns q

theorem registerSock (refers : Refers soS model) (org new : Int) :
    Refers (registerSock soS org new).1 (model.link org new).1 ∧
      (BandwidthLimiter.registerSock soS org new).2 = (model.link org new).2 := by
  cases found : model.roots.lookup org with
  | none =>
      rw [registerSock_unknown (refers.root_none_iff.mpr found), Counted.link_unknown found]
      exact ⟨refers, rfl⟩
  | some entry =>
      have rooted : soS.sockRb.get org = some ⟨entry.1, entry.2⟩ := by
        rw [refers.roots, found]
        rfl
      cases fresh : model.conns.lookup new with
      | some root =>
          obtain ⟨acp, -, -, conn, -⟩ := refers.conn_of fresh
          rw [registerSock_old conn, Counted.link_old (Finmap.mem_of_lookup_eq_some fresh)]
          exact ⟨refers, rfl⟩
      | none =>
          obtain ⟨next, done, keyed, roots, conns, -⟩ := registerSock_spec refers.keyed rooted
            (refers.conn_none_iff.mpr fresh)
          rw [done, Counted.link_new found fresh]
          refine ⟨⟨keyed, fun q => ?_, fun q => ?_⟩, rfl⟩
          · rw [roots, Counted.withChild, lookup_insert_ite, refers.roots]
            split <;> rfl
          · rw [conns, Counted.withChild, lookup_insert_ite]
            split
            · rfl
            · exact refers.conns q

theorem unregister (refers : Refers soS model) (fd : Int) :
    ∃ next, unregisterSocketDescriptor soS fd = .ok (next, true) ∧
      Refers next (model.unlink fd) := by
  cases named : model.conns.lookup fd with
  | none =>
      rw [unregister_absent (refers.conn_none_iff.mpr named), Counted.unlink_absent named]
      exact ⟨soS, rfl, refers⟩
  | some root =>
      obtain ⟨acp, port, count, conn, rfl, found, positive, rooted⟩ := refers.conn_of named
      obtain ⟨next, done, keyed, roots, conns, -⟩ :=
        unregister_spec refers.keyed conn rooted
      rw [Counted.unlink_present named found]
      refine ⟨next, done, keyed, fun q => ?_, fun q => ?_⟩
      · rw [roots, Counted.withoutChild, refers.roots]
        dsimp only
        by_cases last : count = 1
        · have least : (count : Int) - 1 ≤ 0 := by omega
          rw [if_pos last, lookup_erase_ite, if_pos least]
          split <;> rfl
        · have several : ¬(count : Int) - 1 ≤ 0 := by omega
          rw [if_neg last, lookup_insert_ite, if_neg several]
          split
          · have fewer : (count : Int) - 1 = ((count - 1 : Nat) : Int) := by omega
            simp only [Option.map_some, fewer]
          · rfl
      · rw [conns, Counted.withoutChild, lookup_erase_ite]
        split
        · rfl
        · exact refers.conns q

/-- Every operation returns the result of the model and keeps the two in step. -/
theorem step (refers : Refers soS model) (op : StoreOp) :
    ∃ next, op.perform soS = .ok (next, (op.reference model).2) ∧
      Refers next (op.reference model).1 := by
  cases op with
  | initSock fd port =>
      obtain ⟨kept, result⟩ := refers.initSock fd port
      exact ⟨_, congrArg Except.ok (Prod.ext rfl result), kept⟩
  | registerSock org new =>
      obtain ⟨kept, result⟩ := refers.registerSock org new
      exact ⟨_, congrArg Except.ok (Prod.ext rfl result), kept⟩
  | unregister fd => exact refers.unregister fd

theorem present_iff (refers : Refers soS model) :
    isAcpSockFdPresent soS fd = true ↔ fd ∈ model.conns := by
  rw [isAcpSockFdPresent_eq, ← Finmap.lookup_isSome, ← refers.conns, Option.isSome_map]

/-- A root of the store disappears exactly when the operation removes its last connection. -/
theorem disappears (refers : Refers soS model) (op : StoreOp)
    (rooted : soS.sockRb.get root ≠ none) : ∃ next result, op.perform soS = .ok (next, result) ∧
      (next.sockRb.get root = none ↔ op.RemovesLast model root) := by
  obtain ⟨port, value⟩ := Option.ne_none_iff_exists'.mp fun absent =>
    rooted (refers.root_none_iff.mpr (Counted.valueOf_eq_none.mp absent))
  obtain ⟨next, done, kept⟩ := refers.step op
  refine ⟨next, _, done, ?_⟩
  rw [kept.root_none_iff, ← Counted.valueOf_eq_none, StoreOp.RemovesLast]
  cases op with
  | initSock fd other =>
      rw [StoreOp.reference, Counted.valueOf_create]
      split <;> simp [value]
  | registerSock org new => simp [StoreOp.reference, Counted.valueOf_link, value]
  | unregister fd =>
      rw [StoreOp.reference, Counted.valueOf_unlink_eq_none value]
      constructor
      · intro last
        exact ⟨fd, rfl, last⟩
      · rintro ⟨child, same, last⟩
        obtain rfl := StoreOp.unregister.inj same
        exact last

/-- A refused operation leaves the store as it is. -/
theorem refused (refers : Refers soS model) (op : StoreOp) (refused : op.Refused model) :
    op.perform soS = .ok (soS, (op.reference model).2) := by
  obtain ⟨next, done, -⟩ := refers.step op
  rw [done]
  cases op with
  | initSock fd port =>
      obtain ⟨root, present⟩ := Option.ne_none_iff_exists'.mp fun absent =>
        Finmap.lookup_eq_none.mp (refers.root_none_iff.mp absent) refused
      rw [StoreOp.perform, initSock_old present] at done
      rw [(Prod.mk.inj (Except.ok.inj done)).1]
  | registerSock org new =>
      rcases refused with missing | old
      · have absent := refers.root_none_iff.mpr (Finmap.lookup_eq_none.mpr missing)
        rw [StoreOp.perform, registerSock_unknown absent] at done
        rw [(Prod.mk.inj (Except.ok.inj done)).1]
      · obtain ⟨root, named⟩ := Finmap.mem_iff.mp old
        obtain ⟨acp, -, -, conn, -⟩ := refers.conn_of named
        rw [StoreOp.perform, registerSock_old conn] at done
        rw [(Prod.mk.inj (Except.ok.inj done)).1]
  | unregister fd =>
      have absent := refers.conn_none_iff.mpr (Finmap.lookup_eq_none.mpr refused)
      rw [StoreOp.perform, unregister_absent absent] at done
      rw [(Prod.mk.inj (Except.ok.inj done)).1]

end Refers

/-- Every root of the model has the port of the `init_sock` that created its entry. -/
def Dated (events : List (StoreOp × Bool)) (model : Reference) : Prop :=
  ∀ root port, model.valueOf root = some port → createdPort root events = some port

/-- Each operation keeps the ports of the entries, and a new entry has the port of its operation. -/
theorem ReferenceStep.dated {events : List (StoreOp × Bool)} {event : StoreOp × Bool}
    {model next : Reference} (dated : Dated events model)
    (taken : ReferenceStep model event next) : Dated (events ++ [event]) next := by
  obtain ⟨op, result⟩ := event
  intro root port found
  rw [createdPort_snoc]
  cases op with
  | initSock fd other =>
      cases absent : model.roots.lookup fd with
      | none =>
          obtain ⟨-, rfl⟩ := Prod.mk.inj ((Counted.create_new absent).symm.trans taken)
          obtain rfl := congrArg Prod.fst taken
          rw [StoreOp.reference, Counted.valueOf_create, Counted.valueOf_eq_none.mpr absent] at found
          dsimp only
          split at found
          · rename_i same
            rw [if_pos same.symm]
            exact found
          · rename_i different
            rw [if_neg (Ne.symm different)]
            exact dated root port found
      | some entry =>
          have present := Finmap.mem_of_lookup_eq_some absent
          obtain ⟨rfl, rfl⟩ := Prod.mk.inj ((Counted.create_old present).symm.trans taken)
          exact dated root port found
  | registerSock org new =>
      obtain rfl := congrArg Prod.fst taken
      exact dated root port (Counted.valueOf_link.symm.trans found)
  | unregister fd =>
      obtain ⟨rfl, -⟩ := Prod.mk.inj taken
      exact dated root port (Counted.valueOf_unlink.mp found).2

/-- A connection has the port of the `init_sock` that created the entry of its root. -/
theorem Refers.destPort {events : List (StoreOp × Bool)} {soS : SockStruct} {model : Reference}
    {fd root : Int} (refers : Refers soS model) (dated : Dated events model)
    (named : model.conns.lookup fd = some root) :
    ∃ port, createdPort root events = some port ∧ getDestPort soS fd = .ok (some port) := by
  obtain ⟨acp, port, count, conn, rfl, found, -, rooted⟩ := refers.conn_of named
  have value : model.valueOf acp.rootFdNumber = some port := by
    rw [Counted.valueOf, found, Option.map_some]
  exact ⟨port, dated _ port value, getDestPort_present conn rooted⟩

/-- Every sequence of operations runs on the store and on the model with the same results, and the
store then agrees with the model in every lookup and in every next operation. -/
theorem storeRun_refines (ops : List StoreOp) : ∃ events soS model,
    events.map Prod.fst = ops ∧ Run StoreStep setupSockEnv events soS ∧
      Run ReferenceStep Counted.empty events model ∧ Refines events soS model := by
  have runs : ∃ events soS model, events.map Prod.fst = ops ∧
      Run StoreStep setupSockEnv events soS ∧ Run ReferenceStep Counted.empty events model ∧
      Refers soS model ∧ Dated events model := by
    induction ops using List.reverseRecOn with
    | nil => exact ⟨[], _, _, rfl, .start, .start, .setup, by simp [Dated]⟩
    | append_singleton ops op ih =>
        obtain ⟨events, soS, model, same, run, modelRun, refers, dated⟩ := ih
        obtain ⟨next, done, kept⟩ := refers.step op
        have taken : ReferenceStep model (op, (op.reference model).2) (op.reference model).1 := rfl
        exact ⟨events ++ [(op, (op.reference model).2)], next, _, by simp [same], .step run done,
          .step modelRun taken, kept, taken.dated dated⟩
  obtain ⟨events, soS, model, same, run, modelRun, refers, dated⟩ := runs
  exact ⟨events, soS, model, same, run, modelRun, refers, fun _ => refers.present_iff,
    fun _ _ => refers.destPort dated, fun op _ => refers.disappears op, refers.refused⟩

end BandwidthLimiter
