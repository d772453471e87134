import BandwidthLimiter.Foundation.Registry
import BandwidthLimiter.Socket.Store

namespace BandwidthLimiter
open Foundation

variable {soS next : SockStruct} {fd root : Int} {port : UInt32}

namespace SockInvariant

/-- The store as a registry of ports and connections; the counters have no part in it. -/
def registry (invariant : SockInvariant soS) : Registry Int UInt32 where
  valueOf fd := (soS.sockRb.get fd).map SocketFdStruct.port
  rootOf fd := (soS.acpSocketRb.get fd).map AcpSocketFdStruct.rootFdNumber
  rooted child root named := by
    obtain ⟨acp, conn, rfl⟩ := Option.map_eq_some_iff.mp named
    obtain ⟨root, rooted⟩ := invariant.root_of conn
    simp [rooted]

theorem valueOf_eq (invariant : SockInvariant soS) (fd : Int) :
    invariant.registry.valueOf fd = (soS.sockRb.get fd).map SocketFdStruct.port := rfl

theorem rootOf_eq (invariant : SockInvariant soS) (fd : Int) :
    invariant.registry.rootOf fd = (soS.acpSocketRb.get fd).map AcpSocketFdStruct.rootFdNumber := rfl

theorem present_iff (invariant : SockInvariant soS) :
    isAcpSockFdPresent soS fd = true ↔ invariant.registry.rootOf fd ≠ none := by
  rw [isAcpSockFdPresent_eq, rootOf_eq]
  cases soS.acpSocketRb.get fd <;> simp

/-- The port lookup is the lookup in the registry. -/
theorem getDestPort_eq (invariant : SockInvariant soS) (fd : Int) :
    getDestPort soS fd = .ok (invariant.registry.dest fd) := by
  unfold Registry.dest
  rw [rootOf_eq]
  cases conn : soS.acpSocketRb.get fd with
  | none => exact getDestPort_absent conn
  | some acp =>
      obtain ⟨root, rooted⟩ := invariant.root_of conn
      rw [getDestPort_present conn rooted, Option.map_some, Option.bind_some, valueOf_eq, rooted]
      rfl

/-- A new root socket is a declaration. -/
theorem registry_initSock (invariant : SockInvariant soS) (fd : Int) (port : UInt32) :
    (invariant.initSock fd port).registry = invariant.registry.declare fd port := by
  cases absent : soS.sockRb.get fd with
  | some root =>
      ext key : 2
      · rw [valueOf_eq, initSock_old absent, Registry.valueOf_declare, valueOf_eq, valueOf_eq]
        split
        · rename_i same
          simp [same, absent]
        · rfl
      · rw [rootOf_eq, initSock_old absent]
        rfl
  | none =>
      obtain ⟨next, done, -, roots, conns⟩ := initSock_spec invariant.keyed absent port
      ext key : 2
      · rw [valueOf_eq, done, roots, Registry.valueOf_declare, valueOf_eq, valueOf_eq, absent]
        split <;> rfl
      · rw [rootOf_eq, done, conns]
        rfl

/-- A new connection is an attachment. -/
theorem registry_registerSock (invariant : SockInvariant soS) (org new : Int) :
    (invariant.registerSock org new).registry = invariant.registry.attach org new := by
  cases rooted : soS.sockRb.get org with
  | none =>
      have unknown : invariant.registry.valueOf org = none := by simp [valueOf_eq, rooted]
      rw [Registry.attach_unknown unknown]
      ext key : 2
      · rw [valueOf_eq, registerSock_unknown rooted]
        rfl
      · rw [rootOf_eq, registerSock_unknown rooted]
        rfl
  | some root =>
      cases absent : soS.acpSocketRb.get new with
      | some acp =>
          have old : invariant.registry.rootOf new ≠ none := by simp [rootOf_eq, absent]
          ext key : 2
          · rw [valueOf_eq, registerSock_old absent]
            rfl
          · rw [rootOf_eq, registerSock_old absent, Registry.rootOf_attach, if_neg (by simp [old])]
            rfl
      | none =>
          obtain ⟨next, done, -, roots, conns, -⟩ := registerSock_spec invariant.keyed rooted absent
          have free : invariant.registry.rootOf new = none := by simp [rootOf_eq, absent]
          have known : invariant.registry.valueOf org ≠ none := by simp [valueOf_eq, rooted]
          ext key : 2
          · rw [valueOf_eq, done, roots, Registry.valueOf_attach, valueOf_eq]
            split
            · rename_i same
              simp [same, rooted]
            · rfl
          · rw [rootOf_eq, done, conns, Registry.rootOf_attach]
            simp only [free, known, ne_eq, not_false_eq_true, and_self, and_true]
            split <;> rfl

/-- The counter of a root is at most one exactly when its last connection is removed. -/
theorem last_iff (invariant : SockInvariant soS) {acp : AcpSocketFdStruct} {root : SocketFdStruct}
    (conn : soS.acpSocketRb.get fd = some acp)
    (rooted : soS.sockRb.get acp.rootFdNumber = some root) :
    invariant.registry.Last fd acp.rootFdNumber ↔ root.refCount - 1 ≤ 0 := by
  obtain ⟨next, done, keyed, -, conns, counts⟩ := unregister_spec invariant.keyed conn rooted
  have count := counts acp.rootFdNumber
  rw [if_pos rfl] at count
  have before := invariant.count_eq rooted
  have empty : next.connections acp.rootFdNumber = 0 ↔ root.refCount - 1 ≤ 0 := by omega
  rw [← empty, SockStruct.connections, List.countP_eq_zero]
  simp only [decide_eq_true_eq]
  constructor
  · rintro ⟨-, only⟩ entry mem named
    have kept := keyed.conns.get_eq_some.mpr mem
    rw [conns] at kept
    split at kept
    · cases kept
    · rename_i different
      exact different (only entry.1 (by rw [rootOf_eq, kept, Option.map_some, named]))
  · intro none'
    refine ⟨by rw [rootOf_eq, conn]; rfl, fun other named => ?_⟩
    by_contra different
    obtain ⟨old, present, same⟩ := Option.map_eq_some_iff.mp (invariant.rootOf_eq other ▸ named)
    have kept : next.acpSocketRb.get other = some old := by rw [conns, if_neg different, present]
    exact none' _ (RbTree.mem_of_get kept) same

/-- A removed connection is a detachment. -/
theorem registry_unregister (invariant : SockInvariant soS) {result : Bool}
    (done : unregisterSocketDescriptor soS fd = .ok (next, result)) :
    (invariant.unregister done).registry = invariant.registry.detach fd := by
  cases conn : soS.acpSocketRb.get fd with
  | none =>
      have absent : invariant.registry.rootOf fd = none := by simp [rootOf_eq, conn]
      have same := done
      rw [unregister_absent conn] at same
      obtain ⟨rfl, -⟩ := Prod.mk.inj (Except.ok.inj same)
      rw [Registry.detach_absent absent]
  | some acp =>
      obtain ⟨root, rooted⟩ := invariant.root_of conn
      have last := invariant.last_iff conn rooted
      obtain ⟨later, run, -, roots, conns, -⟩ := unregister_spec invariant.keyed conn rooted
      obtain ⟨rfl, -⟩ := Prod.mk.inj (Except.ok.inj (run.symm.trans done))
      have named : invariant.registry.rootOf fd = some acp.rootFdNumber := by simp [rootOf_eq, conn]
      ext key : 2
      · rw [valueOf_eq, roots, Registry.valueOf_detach]
        by_cases same : key = acp.rootFdNumber
        · subst same
          rw [if_pos rfl, valueOf_eq, rooted]
          split <;> simp_all
        · have other : ¬invariant.registry.Last fd key := fun ⟨found, _⟩ =>
            same (Option.some.inj (found.symm.trans named))
          rw [if_neg same, if_neg other, valueOf_eq]
      · rw [rootOf_eq, conns, Registry.rootOf_detach]
        split <;> rfl

end SockInvariant

end BandwidthLimiter
