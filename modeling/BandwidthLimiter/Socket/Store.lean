import BandwidthLimiter.Socket.Fd

namespace BandwidthLimiter
open Foundation

namespace SockStruct

/-- The number of connections that name a root socket. -/
def connections (soS : SockStruct) (root : Int) : Nat :=
  soS.acpSocketRb.entries.countP fun entry => entry.2.rootFdNumber = root

/-- Both trees hold each number at most once. -/
structure Keyed (soS : SockStruct) : Prop where
  roots : soS.sockRb.Unique
  conns : soS.acpSocketRb.Unique

end SockStruct

variable {soS : SockStruct} {fd org new : Int} {port : UInt32} {root : SocketFdStruct}
  {acp : AcpSocketFdStruct}

section Branches

theorem initSock_new (absent : soS.sockRb.get fd = none) :
    initSock soS fd port =
      ({ soS with sockRb := soS.sockRb.insert fd ⟨port, 0⟩ }, true) := by
  simp [initSock, RbTree.get_eq_none.mp absent]

theorem initSock_old (present : soS.sockRb.get fd = some root) :
    initSock soS fd port = (soS, false) := by
  obtain ⟨node, found, -⟩ := RbTree.exists_of_get present
  simp [initSock, found]

theorem registerSock_unknown (absent : soS.sockRb.get org = none) :
    registerSock soS org new = (soS, false) := by
  simp [registerSock, RbTree.get_eq_none.mp absent]

theorem registerSock_old (present : soS.acpSocketRb.get new = some acp) :
    registerSock soS org new = (soS, false) := by
  obtain ⟨node, found, -⟩ := RbTree.exists_of_get present
  unfold registerSock
  rw [found]
  cases soS.sockRb.exactQuery org <;> rfl

theorem copyFd_absent (absent : soS.acpSocketRb.get fd = none) :
    copyFd soS fd new = (soS, false) := by
  simp [copyFd, RbTree.get_eq_none.mp absent]

theorem copyFd_present (conn : soS.acpSocketRb.get fd = some acp) :
    copyFd soS fd new = ({ soS with acpSocketRb := soS.acpSocketRb.insert new acp }, true) := by
  obtain ⟨node, found, -, rfl⟩ := RbTree.exists_of_get conn
  simp [copyFd, found]

theorem isAcpSockFdPresent_eq : isAcpSockFdPresent soS fd = (soS.acpSocketRb.get fd).isSome := by
  simp [isAcpSockFdPresent, RbTree.get]

theorem getDestPort_absent (absent : soS.acpSocketRb.get fd = none) :
    getDestPort soS fd = .ok none := by
  simp [getDestPort, RbTree.get_eq_none.mp absent]

theorem getDestPort_present (conn : soS.acpSocketRb.get fd = some acp)
    (rooted : soS.sockRb.get acp.rootFdNumber = some root) :
    getDestPort soS fd = .ok (some root.port) := by
  obtain ⟨node, found, -, rfl⟩ := RbTree.exists_of_get conn
  obtain ⟨rootNode, rootFound, -, rfl⟩ := RbTree.exists_of_get rooted
  simp [getDestPort, found, rootFound]

theorem getDestPort_unrooted (conn : soS.acpSocketRb.get fd = some acp)
    (unrooted : soS.sockRb.get acp.rootFdNumber = none) :
    getDestPort soS fd = .error .nullDereference := by
  obtain ⟨node, found, -, rfl⟩ := RbTree.exists_of_get conn
  simp [getDestPort, found, RbTree.get_eq_none.mp unrooted]

theorem unregister_absent (absent : soS.acpSocketRb.get fd = none) :
    unregisterSocketDescriptor soS fd = .ok (soS, true) := by
  simp [unregisterSocketDescriptor, RbTree.get_eq_none.mp absent]

theorem unregister_unrooted (conn : soS.acpSocketRb.get fd = some acp)
    (unrooted : soS.sockRb.get acp.rootFdNumber = none) :
    unregisterSocketDescriptor soS fd = .error .nullDereference := by
  obtain ⟨node, found, -, rfl⟩ := RbTree.exists_of_get conn
  simp [unregisterSocketDescriptor, found, RbTree.get_eq_none.mp unrooted]

theorem unregister_present {node : soS.acpSocketRb.Node} {rootNode : soS.sockRb.Node}
    (found : soS.acpSocketRb.exactQuery fd = some node)
    (rootFound : soS.sockRb.exactQuery (soS.acpSocketRb.info node).rootFdNumber = some rootNode) :
    let old := soS.sockRb.info rootNode
    let counted := soS.sockRb.setInfo rootNode { old with refCount := old.refCount - 1 }
    unregisterSocketDescriptor soS fd =
      .ok ({ sockRb := if old.refCount - 1 ≤ 0 then counted.delete rootNode else counted
             acpSocketRb := soS.acpSocketRb.delete node }, true) := by
  intro old counted
  rw [unregisterSocketDescriptor, found]
  dsimp only
  rw [rootFound]

end Branches

section Effects

/-- The effect of a new root on the lookups. -/
theorem initSock_spec (keyed : soS.Keyed) (absent : soS.sockRb.get fd = none) (port : UInt32) :
    ∃ next, initSock soS fd port = (next, true) ∧ next.Keyed ∧
      (∀ q, next.sockRb.get q = if q = fd then some ⟨port, 0⟩ else soS.sockRb.get q) ∧
      next.acpSocketRb = soS.acpSocketRb :=
  ⟨_, initSock_new absent, ⟨keyed.roots.insert absent, keyed.conns⟩,
    keyed.roots.get_insert absent, rfl⟩

/-- The effect of a new connection on the lookups and the counts. -/
theorem registerSock_spec (keyed : soS.Keyed) (rooted : soS.sockRb.get org = some root)
    (absent : soS.acpSocketRb.get new = none) :
    ∃ next, registerSock soS org new = (next, true) ∧ next.Keyed ∧
      (∀ q, next.sockRb.get q =
        if q = org then some { root with refCount := root.refCount + 1 } else soS.sockRb.get q) ∧
      (∀ q, next.acpSocketRb.get q =
        if q = new then some ⟨org, .zero, .zero⟩ else soS.acpSocketRb.get q) ∧
      ∀ r, next.connections r = soS.connections r + if org = r then 1 else 0 := by
  obtain ⟨node, found, key, rfl⟩ := RbTree.exists_of_get rooted
  refine ⟨_, by simp [registerSock, found, RbTree.get_eq_none.mp absent]; rfl,
    ⟨keyed.roots.setInfo node _, keyed.conns.insert absent⟩, ?_, ?_, ?_⟩
  · exact RbTree.get_setInfo found _
  · exact keyed.conns.get_insert absent
  · intro r
    have perm := soS.acpSocketRb.entries_insert new ⟨org, .zero, .zero⟩
    simp only [SockStruct.connections]
    rw [perm.countP_eq, List.countP_cons]
    simp

/-- The effect of a removed connection on the two trees. -/
theorem unregister_trees (unique : soS.sockRb.Unique) (conn : soS.acpSocketRb.get fd = some acp)
    (rooted : soS.sockRb.get acp.rootFdNumber = some root) :
    ∃ (node : soS.acpSocketRb.Node) (next : SockStruct),
      unregisterSocketDescriptor soS fd = .ok (next, true) ∧ next.sockRb.Unique ∧
      (∀ q, next.sockRb.get q =
        if q = acp.rootFdNumber then
          if root.refCount - 1 ≤ 0 then none
          else some { root with refCount := root.refCount - 1 }
        else soS.sockRb.get q) ∧
      next.acpSocketRb = soS.acpSocketRb.delete node ∧ soS.acpSocketRb.key node = fd ∧
      soS.acpSocketRb.info node = acp := by
  obtain ⟨node, found, key, rfl⟩ := RbTree.exists_of_get conn
  obtain ⟨rootNode, rootFound, rootKey, rfl⟩ := RbTree.exists_of_get rooted
  have counted := unique.setInfo rootNode
    { soS.sockRb.info rootNode with refCount := (soS.sockRb.info rootNode).refCount - 1 }
  have written := RbTree.get_setInfo rootFound
    { soS.sockRb.info rootNode with refCount := (soS.sockRb.info rootNode).refCount - 1 }
  refine ⟨node, _, unregister_present found rootFound, ?_, ?_, rfl, key, rfl⟩
  · dsimp only
    split
    · exact counted.delete _
    · exact counted
  · intro q
    dsimp only
    split
    · have removed := counted.get_delete rootNode q
      rw [show (soS.sockRb.setInfo rootNode _).key rootNode = _ from rootKey] at removed
      rw [removed, written]
      split
      · rfl
      · rfl
    · rw [written]

/-- The effect of a removed connection on the lookups and the counts. -/
theorem unregister_spec (keyed : soS.Keyed) (conn : soS.acpSocketRb.get fd = some acp)
    (rooted : soS.sockRb.get acp.rootFdNumber = some root) :
    ∃ next, unregisterSocketDescriptor soS fd = .ok (next, true) ∧ next.Keyed ∧
      (∀ q, next.sockRb.get q =
        if q = acp.rootFdNumber then
          if root.refCount - 1 ≤ 0 then none
          else some { root with refCount := root.refCount - 1 }
        else soS.sockRb.get q) ∧
      (∀ q, next.acpSocketRb.get q = if q = fd then none else soS.acpSocketRb.get q) ∧
      ∀ r, soS.connections r = next.connections r + if acp.rootFdNumber = r then 1 else 0 := by
  obtain ⟨node, next, done, unique, roots, conns, rfl, rfl⟩ :=
    unregister_trees keyed.roots conn rooted
  refine ⟨next, done, ⟨unique, conns ▸ keyed.conns.delete node⟩, roots, fun q => ?_, fun r => ?_⟩
  · rw [conns, keyed.conns.get_delete]
  · have perm := soS.acpSocketRb.entries_delete node
    simp only [SockStruct.connections, conns]
    rw [perm.countP_eq, List.countP_cons]
    simp

end Effects

/-- The representation invariant of the two trees and their counters. -/
structure SockInvariant (soS : SockStruct) : Prop where
  keyed : soS.Keyed
  rooted : ∀ entry ∈ soS.acpSocketRb.entries,
    entry.2.rootFdNumber ∈ soS.sockRb.entries.map Prod.fst
  counted : ∀ entry ∈ soS.sockRb.entries, entry.2.refCount = soS.connections entry.1

namespace SockInvariant

/-- The invariant in terms of lookups. -/
theorem iff_get (keyed : soS.Keyed) : SockInvariant soS ↔
    (∀ fd acp, soS.acpSocketRb.get fd = some acp → soS.sockRb.get acp.rootFdNumber ≠ none) ∧
      ∀ fd root, soS.sockRb.get fd = some root → root.refCount = soS.connections fd := by
  constructor
  · intro invariant
    refine ⟨fun fd acp conn => ?_, fun fd root present => ?_⟩
    · rw [Ne, RbTree.get_eq_none_iff_absent, not_not]
      exact invariant.rooted _ (RbTree.mem_of_get conn)
    · exact invariant.counted _ (RbTree.mem_of_get present)
  · rintro ⟨rooted, counted⟩
    refine ⟨keyed, fun entry mem => ?_, fun entry mem => ?_⟩
    · have present := rooted entry.1 entry.2 (keyed.conns.get_eq_some.mpr mem)
      rwa [Ne, RbTree.get_eq_none_iff_absent, not_not] at present
    · exact counted entry.1 entry.2 (keyed.roots.get_eq_some.mpr mem)

theorem root_of (invariant : SockInvariant soS) (conn : soS.acpSocketRb.get fd = some acp) :
    ∃ root, soS.sockRb.get acp.rootFdNumber = some root :=
  Option.ne_none_iff_exists'.mp (((iff_get invariant.keyed).mp invariant).1 fd acp conn)

theorem count_eq (invariant : SockInvariant soS) (present : soS.sockRb.get fd = some root) :
    root.refCount = soS.connections fd := ((iff_get invariant.keyed).mp invariant).2 fd root present

theorem setup : SockInvariant setupSockEnv :=
  ⟨⟨RbTree.unique_create, RbTree.unique_create⟩, by simp [setupSockEnv], by simp [setupSockEnv]⟩

theorem initSock (invariant : SockInvariant soS) (fd : Int) (port : UInt32) :
    SockInvariant (initSock soS fd port).1 := by
  cases absent : soS.sockRb.get fd with
  | some root => rwa [initSock_old absent]
  | none =>
      obtain ⟨next, done, keyed, roots, conns⟩ := initSock_spec invariant.keyed absent port
      rw [done]
      have unused : soS.connections fd = 0 := by
        apply List.countP_eq_zero.mpr
        intro entry mem named
        have rooted := invariant.rooted entry mem
        rw [of_decide_eq_true named] at rooted
        exact RbTree.get_eq_none_iff_absent.mp absent rooted
      have same (r : Int) : next.connections r = soS.connections r := by
        simp only [SockStruct.connections, conns]
      refine (iff_get keyed).mpr ⟨fun q acp conn => ?_, fun q root present => ?_⟩
      · rw [conns] at conn
        obtain ⟨root, rooted⟩ := invariant.root_of conn
        rw [roots]
        split <;> simp [rooted]
      · rw [roots] at present
        rw [same]
        split at present
        · rename_i equal
          obtain rfl := Option.some.inj present
          rw [equal, unused]
          rfl
        · exact invariant.count_eq present

theorem registerSock (invariant : SockInvariant soS) (org new : Int) :
    SockInvariant (registerSock soS org new).1 := by
  cases rooted : soS.sockRb.get org with
  | none => rwa [registerSock_unknown rooted]
  | some root =>
      cases absent : soS.acpSocketRb.get new with
      | some acp => rwa [registerSock_old absent]
      | none =>
          obtain ⟨next, done, keyed, roots, conns, counts⟩ :=
            registerSock_spec invariant.keyed rooted absent
          rw [done]
          refine (iff_get keyed).mpr ⟨fun q acp conn => ?_, fun q other present => ?_⟩
          · rw [conns] at conn
            rw [roots]
            split at conn
            · obtain rfl := Option.some.inj conn
              simp
            · obtain ⟨other, present⟩ := invariant.root_of conn
              split <;> simp [present]
          · rw [roots] at present
            rw [counts]
            split at present
            · rename_i equal
              obtain rfl := Option.some.inj present
              have before := invariant.count_eq rooted
              simp [equal, before]
            · rename_i different
              have before := invariant.count_eq present
              simp [Ne.symm different, before]

theorem unregister (invariant : SockInvariant soS) {next : SockStruct} {result : Bool}
    (done : unregisterSocketDescriptor soS fd = .ok (next, result)) : SockInvariant next := by
  cases conn : soS.acpSocketRb.get fd with
  | none =>
      rw [unregister_absent conn] at done
      obtain ⟨rfl, -⟩ := Prod.mk.inj (Except.ok.inj done)
      exact invariant
  | some acp =>
      obtain ⟨root, rooted⟩ := invariant.root_of conn
      obtain ⟨later, run, keyed, roots, conns, counts⟩ :=
        unregister_spec invariant.keyed conn rooted
      obtain ⟨rfl, -⟩ := Prod.mk.inj (Except.ok.inj (run.symm.trans done))
      have before := invariant.count_eq rooted
      have count := counts acp.rootFdNumber
      rw [if_pos rfl] at count
      refine (iff_get keyed).mpr ⟨fun q other kept => ?_, fun q other present => ?_⟩
      · have old := kept
        rw [conns] at old
        split at old
        · cases old
        · obtain ⟨otherRoot, otherRooted⟩ := invariant.root_of old
          rw [roots]
          split
          · rename_i same
            have named : 0 < later.connections other.rootFdNumber :=
              List.countP_pos_iff.mpr ⟨_, RbTree.mem_of_get kept, by simp⟩
            rw [same] at named
            rw [if_neg (by omega)]
            simp
          · simp [otherRooted]
      · rw [roots] at present
        split at present
        · rename_i same
          split at present
          · cases present
          · obtain rfl := Option.some.inj present
            simp only [same]
            omega
        · rename_i different
          have otherCount := counts q
          rw [if_neg (Ne.symm different)] at otherCount
          rw [← otherCount.trans (Nat.add_zero _)]
          exact invariant.count_eq present

/-- With the invariant a connection has the port of its root. -/
theorem getDestPort_ne_error (invariant : SockInvariant soS) (fd : Int) (stop : Stop) :
    getDestPort soS fd ≠ .error stop := by
  cases conn : soS.acpSocketRb.get fd with
  | none => simp [getDestPort_absent conn]
  | some acp =>
      obtain ⟨root, rooted⟩ := invariant.root_of conn
      simp [getDestPort_present conn rooted]

theorem unregister_ne_error (invariant : SockInvariant soS) (fd : Int) (stop : Stop) :
    unregisterSocketDescriptor soS fd ≠ .error stop := by
  cases conn : soS.acpSocketRb.get fd with
  | none => simp [unregister_absent conn]
  | some acp =>
      obtain ⟨root, rooted⟩ := invariant.root_of conn
      obtain ⟨next, done, -⟩ := unregister_spec invariant.keyed conn rooted
      simp [done]

end SockInvariant

end BandwidthLimiter
