import BandwidthLimiter.Foundation.Run
import BandwidthLimiter.Socket.Store

namespace BandwidthLimiter
open Foundation

/-- The operations that change the store, with their arguments. -/
inductive SockOp where
  | initSock (sockDes : Int) (port : UInt32)
  | registerSock (orgSocketFd listenSockFd : Int)
  | copyFd (oldFd newFd : Int)
  | unregister (acpSockFd : Int)
  deriving DecidableEq, Repr

def SockOp.apply (soS : SockStruct) : SockOp → Except Stop SockStruct
  | .initSock sockDes port => .ok (BandwidthLimiter.initSock soS sockDes port).1
  | .registerSock org listen => .ok (BandwidthLimiter.registerSock soS org listen).1
  | .copyFd oldFd newFd => .ok (BandwidthLimiter.copyFd soS oldFd newFd).1
  | .unregister fd => (unregisterSocketDescriptor soS fd).map Prod.fst

def SockStep (soS : SockStruct) (op : SockOp) (next : SockStruct) : Prop :=
  op.apply soS = .ok next

/-- A safe store keeps the invariant, and no lookup in it reads through a NULL pointer. -/
structure SockSafe (soS : SockStruct) : Prop where
  invariant : SockInvariant soS
  destPort : ∀ fd, getDestPort soS fd ≠ .error .nullDereference
  unregister : ∀ fd, unregisterSocketDescriptor soS fd ≠ .error .nullDereference

/-- This operation copies a registered connection to another number. -/
def SockOp.CopiesConnection (soS : SockStruct) : SockOp → Prop
  | .copyFd oldFd _ => isAcpSockFdPresent soS oldFd = true
  | _ => False

theorem SockInvariant.safe {soS : SockStruct} (invariant : SockInvariant soS) : SockSafe soS :=
  ⟨invariant, fun fd => invariant.getDestPort_ne_error fd _,
    fun fd => invariant.unregister_ne_error fd _⟩

variable {soS next : SockStruct} {op : SockOp} {ops : List SockOp}

/-- Every operation that copies no connection keeps the invariant. -/
theorem SockStep.invariant (invariant : SockInvariant soS) (taken : SockStep soS op next)
    (other : ¬op.CopiesConnection soS) : SockInvariant next := by
  cases op with
  | initSock sockDes port =>
      obtain rfl := Except.ok.inj taken
      exact invariant.initSock sockDes port
  | registerSock org listen =>
      obtain rfl := Except.ok.inj taken
      exact invariant.registerSock org listen
  | copyFd oldFd newFd =>
      obtain rfl := Except.ok.inj taken
      have absent : soS.acpSocketRb.get oldFd = none := by
        simpa [SockOp.CopiesConnection, isAcpSockFdPresent_eq] using other
      rwa [copyFd_absent absent]
  | unregister fd =>
      cases done : unregisterSocketDescriptor soS fd with
      | error stop => exact absurd done (invariant.unregister_ne_error fd stop)
      | ok result =>
          simp only [SockStep, SockOp.apply, done] at taken
          obtain rfl := Except.ok.inj taken
          exact invariant.unregister done

/-- Copying a connection leaves the counter of its root behind. -/
theorem copyFd_uncounted {oldFd newFd : Int} (invariant : SockInvariant soS)
    (copies : isAcpSockFdPresent soS oldFd = true) : ¬SockInvariant (copyFd soS oldFd newFd).1 := by
  rw [isAcpSockFdPresent_eq] at copies
  obtain ⟨acp, conn⟩ := Option.isSome_iff_exists.mp copies
  obtain ⟨root, rooted⟩ := invariant.root_of conn
  intro later
  have before := invariant.count_eq rooted
  rw [copyFd_present conn] at later
  have after := later.counted _ (RbTree.mem_of_get rooted)
  have perm := soS.acpSocketRb.entries_insert newFd acp
  simp only [SockStruct.connections] at after before
  rw [perm.countP_eq, List.countP_cons, before] at after
  simp only [decide_true, if_true, Int.natCast_add, Int.natCast_one] at after
  omega

/-- The removal of the only counted connection leaves its copy without a root, and each later use of
the copy reads through a NULL pointer. -/
theorem copyFd_unrooted {oldFd newFd : Int} {acp : AcpSocketFdStruct} {root : SocketFdStruct}
    (keyed : soS.Keyed) (conn : soS.acpSocketRb.get oldFd = some acp)
    (rooted : soS.sockRb.get acp.rootFdNumber = some root) (counted : root.refCount ≤ 1)
    (absent : soS.acpSocketRb.get newFd = none) :
    ∃ next, unregisterSocketDescriptor (copyFd soS oldFd newFd).1 oldFd = .ok (next, true) ∧
      getDestPort next newFd = .error .nullDereference ∧
      unregisterSocketDescriptor next newFd = .error .nullDereference := by
  have different : newFd ≠ oldFd := by
    rintro rfl
    rw [absent] at conn
    cases conn
  have lookup (q : Int) : (soS.acpSocketRb.insert newFd acp).get q =
      if q = newFd then some acp else soS.acpSocketRb.get q := keyed.conns.get_insert absent q
  rw [copyFd_present conn]
  have copied : SockStruct.Keyed { soS with acpSocketRb := soS.acpSocketRb.insert newFd acp } :=
    ⟨keyed.roots, keyed.conns.insert absent⟩
  obtain ⟨next, done, -, roots, conns, -⟩ := unregister_spec copied
    ((lookup oldFd).trans ((if_neg different.symm).trans conn)) rooted
  have kept : next.acpSocketRb.get newFd = some acp := by
    rw [conns, if_neg different]
    exact (lookup newFd).trans (if_pos rfl)
  have unrooted : next.sockRb.get acp.rootFdNumber = none := by
    rw [roots, if_pos rfl, if_pos (by omega)]
  exact ⟨next, done, getDestPort_unrooted kept unrooted, unregister_unrooted kept unrooted⟩

/-- One operation keeps the store safe exactly when it copies no connection. -/
theorem SockStep.safe_iff (invariant : SockInvariant soS) (taken : SockStep soS op next) :
    SockSafe next ↔ ¬op.CopiesConnection soS := by
  refine ⟨fun safe => ?_, fun other => (taken.invariant invariant other).safe⟩
  cases op with
  | copyFd oldFd newFd =>
      intro copies
      obtain rfl := Except.ok.inj taken
      exact copyFd_uncounted invariant copies safe.invariant
  | _ => exact id

/-- The runs that keep the store safe are those that copy no connection. -/
theorem sockRun_safe_iff :
    Run (fun soS op next => SockStep soS op next ∧ SockSafe next) setupSockEnv ops soS ↔
      Run (fun soS op next => SockStep soS op next ∧ ¬op.CopiesConnection soS)
        setupSockEnv ops soS :=
  Run.guard_iff SockInvariant .setup (fun _ _ _ invariant taken => taken.safe_iff invariant)
    fun _ _ _ invariant taken other => taken.invariant invariant other

section Duplicate

/-- The store after one accepted connection and its duplicate. -/
def duplicateStore : SockStruct :=
  (copyFd (registerSock (initSock setupSockEnv 3 80).1 3 4).1 4 5).1

theorem duplicateStore_run : Run SockStep setupSockEnv
    [.initSock 3 80, .registerSock 3 4, .copyFd 4 5] duplicateStore :=
  .step (.step (.step .start rfl) rfl) rfl

set_option maxRecDepth 4000 in
/-- Two connections name the root socket, and its counter is still one. -/
theorem duplicateStore_unsafe :
    ¬∀ (ops : List SockOp) (soS : SockStruct), Run SockStep setupSockEnv ops soS → SockSafe soS := by
  intro assumed
  have counted := (assumed _ _ duplicateStore_run).invariant.counted (3, ⟨80, 1⟩) (by decide)
  exact absurd counted (by decide)

end Duplicate

end BandwidthLimiter
