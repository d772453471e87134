import BandwidthLimiter.Socket.StoreRun
import BandwidthLimiter.Tree.Ownership

namespace BandwidthLimiter
open Foundation

/-- The socket trees with their blocks, and all blocks in use. -/
structure SockHeap where
  sockRb : TreeHeap intComparison SocketFdStruct
  acpSocketRb : TreeHeap intComparison AcpSocketFdStruct
  live : List Nat

namespace SockHeap

/-- The function `__setup_sock_env__` with its blocks. -/
def setup (malloc : List Nat → Nat) (live : List Nat) : SockHeap :=
  let (sockRb, live) := TreeHeap.create _ _ malloc live
  let (acpSocketRb, live) := TreeHeap.create _ _ malloc live
  { sockRb, acpSocketRb, live }

/-- The store without the addresses. -/
def forget (soS : SockHeap) : SockStruct where
  sockRb := soS.sockRb.forget
  acpSocketRb := soS.acpSocketRb.forget

def initSock (malloc : List Nat → Nat) (soS : SockHeap) (sockDes : Int) (port : UInt32) :
    SockHeap × Bool :=
  match soS.sockRb.tree.exactQuery (.onStack sockDes) with
  | none =>
      let (sockStr, live) := safeMalloc malloc soS.live
      let (sock, live) := safeMalloc malloc live
      let (sockRb, live) := soS.sockRb.insert malloc live ⟨sock, sockDes⟩ ⟨sockStr, ⟨port, 0⟩⟩
      ({ soS with sockRb, live }, true)
  | some _ => (soS, false)

def registerSock (malloc : List Nat → Nat) (soS : SockHeap) (orgSocketFd listenSockFd : Int) :
    SockHeap × Bool :=
  match soS.sockRb.tree.exactQuery (.onStack orgSocketFd),
      soS.acpSocketRb.tree.exactQuery (.onStack listenSockFd) with
  | some rbNodeOrg, none =>
      let (acpSocStr, live) := safeMalloc malloc soS.live
      let (sock, live) := safeMalloc malloc live
      let (acpSocketRb, live) := soS.acpSocketRb.insert malloc live ⟨sock, listenSockFd⟩
        ⟨acpSocStr, ⟨orgSocketFd, .zero, .zero⟩⟩
      let socStr := (soS.sockRb.tree.info rbNodeOrg).value
      let sockRb := soS.sockRb.setValue rbNodeOrg { socStr with refCount := socStr.refCount + 1 }
      ({ sockRb, acpSocketRb, live }, true)
  | _, _ => (soS, false)

/-- The copy of a connection has a block of its own. -/
def copyFd (malloc : List Nat → Nat) (soS : SockHeap) (oldFd newFd : Int) : SockHeap × Bool :=
  match soS.acpSocketRb.tree.exactQuery (.onStack oldFd) with
  | none => (soS, false)
  | some rbNodeAcp =>
      let oldSocStr := (soS.acpSocketRb.tree.info rbNodeAcp).value
      let (acpSocStr, live) := safeMalloc malloc soS.live
      let (sock, live) := safeMalloc malloc live
      let (acpSocketRb, live) := soS.acpSocketRb.insert malloc live ⟨sock, newFd⟩ ⟨acpSocStr, oldSocStr⟩
      ({ soS with acpSocketRb, live }, true)

def unregisterSocketDescriptor (soS : SockHeap) (acpSockFd : Int) :
    Except Fault (SockHeap × Bool) :=
  match soS.acpSocketRb.tree.exactQuery (.onStack acpSockFd) with
  | none => .ok (soS, true)
  | some rbNodeAcp =>
      let acpSocStr := (soS.acpSocketRb.tree.info rbNodeAcp).value
      match soS.sockRb.tree.exactQuery (.onStack acpSocStr.rootFdNumber) with
      | none => .error .nullDereference
      | some rbNodeOrg => do
          let old := (soS.sockRb.tree.info rbNodeOrg).value
          let socStr := { old with refCount := old.refCount - 1 }
          let counted := soS.sockRb.setValue rbNodeOrg socStr
          let (sockRb, live) ←
            if socStr.refCount ≤ 0 then counted.delete (intDestructor _) soS.live rbNodeOrg
            else pure (counted, soS.live)
          let (acpSocketRb, live) ← soS.acpSocketRb.delete (intDestructor _) live rbNodeAcp
          return ({ sockRb, acpSocketRb, live }, true)

/-- The accepted sockets are destroyed first. -/
def cleanSock (soS : SockHeap) : Except Fault (List Nat) := do
  let live ← soS.acpSocketRb.destroy (intDestructor _) soS.live
  soS.sockRb.destroy (intDestructor _) live

end SockHeap

/-- The operations of the store on the heap. -/
def SockOp.applyIn (malloc : List Nat → Nat) (soS : SockHeap) : SockOp → Except Fault SockHeap
  | .initSock sockDes port => .ok (soS.initSock malloc sockDes port).1
  | .registerSock org listen => .ok (soS.registerSock malloc org listen).1
  | .copyFd oldFd newFd => .ok (soS.copyFd malloc oldFd newFd).1
  | .unregister fd => (soS.unregisterSocketDescriptor fd).map Prod.fst

namespace SockHeap

/-- The blocks of both trees. -/
def owned (soS : SockHeap) : List Nat :=
  soS.sockRb.owned (intDestructor _) ++ soS.acpSocketRb.owned (intDestructor _)

/-- The blocks in use are those of the trees and those of `base`, each once. -/
structure Owns (base : List Nat) (soS : SockHeap) : Prop where
  owned : soS.live.Perm (soS.owned ++ base)
  distinct : soS.live.Nodup

variable {malloc : List Nat → Nat} {soS : SockHeap} {base : List Nat}

theorem Owns.perm {other : List Nat} (owns : soS.Owns base) (same : base.Perm other) :
    soS.Owns other :=
  ⟨owns.owned.trans (same.append_left soS.owned), owns.distinct⟩

/-- The start takes three blocks for each tree. -/
theorem owns_setup (fresh : ∀ live, malloc live ∉ live) (distinct : base.Nodup) :
    (setup malloc base).Owns base := by
  have first : (TreeHeap.create intComparison SocketFdStruct malloc base).2.Nodup :=
    TreeHeap.create_nodup fresh distinct
  have second : (TreeHeap.create intComparison AcpSocketFdStruct malloc _).2.Nodup :=
    TreeHeap.create_nodup fresh first
  have live : (setup malloc base).live = (setup malloc base).acpSocketRb.owned (intDestructor _) ++
      ((setup malloc base).sockRb.owned (intDestructor _) ++ base) := rfl
  refine ⟨?_, second⟩
  rw [live, SockHeap.owned, List.append_assoc]
  exact List.perm_append_comm_assoc ..

/-- The addresses do not matter for the registration of a socket. -/
theorem forget_initSock (sockDes : Int) (port : UInt32) :
    (soS.initSock malloc sockDes port).1.forget =
      (BandwidthLimiter.initSock soS.forget sockDes port).1 := by
  have query : soS.forget.sockRb.exactQuery sockDes = _ := soS.sockRb.forget_exactQuery sockDes
  unfold initSock BandwidthLimiter.initSock
  rw [query]
  cases soS.sockRb.tree.exactQuery (.onStack sockDes) with
  | none => exact congrArg (SockStruct.mk · _) (soS.sockRb.forget_insert ..)
  | some node => rfl

theorem forget_registerSock (org listen : Int) :
    (soS.registerSock malloc org listen).1.forget =
      (BandwidthLimiter.registerSock soS.forget org listen).1 := by
  have root : soS.forget.sockRb.exactQuery org = _ := soS.sockRb.forget_exactQuery org
  have conn : soS.forget.acpSocketRb.exactQuery listen = _ := soS.acpSocketRb.forget_exactQuery listen
  unfold registerSock BandwidthLimiter.registerSock
  rw [root, conn]
  cases soS.sockRb.tree.exactQuery (.onStack org) with
  | none => rfl
  | some rbNodeOrg =>
      cases soS.acpSocketRb.tree.exactQuery (.onStack listen) with
      | some node => rfl
      | none => simp [forget]

theorem forget_copyFd (oldFd newFd : Int) :
    (soS.copyFd malloc oldFd newFd).1.forget =
      (BandwidthLimiter.copyFd soS.forget oldFd newFd).1 := by
  have query : soS.forget.acpSocketRb.exactQuery oldFd = _ := soS.acpSocketRb.forget_exactQuery oldFd
  unfold copyFd BandwidthLimiter.copyFd
  rw [query]
  cases soS.acpSocketRb.tree.exactQuery (.onStack oldFd) with
  | none => rfl
  | some rbNodeAcp => simp [forget]

/-- Three new blocks for a new node of a tree. -/
theorem Owns.allocate (owns : soS.Owns base) (fresh : ∀ live, malloc live ∉ live)
    {sockRb : TreeHeap intComparison SocketFdStruct}
    {acpSocketRb : TreeHeap intComparison AcpSocketFdStruct} {info key node : Nat}
    (first : info = malloc soS.live) (second : key = malloc (info :: soS.live))
    (third : node = malloc (key :: info :: soS.live))
    (added : (sockRb.owned (intDestructor _) ++ acpSocketRb.owned (intDestructor _)).Perm
      ([key, info, node] ++ soS.owned)) :
    Owns base ⟨sockRb, acpSocketRb, node :: key :: info :: soS.live⟩ where
  owned := by
    have order : [node, key, info].Perm [key, info, node] :=
      (List.Perm.swap ..).trans ((List.Perm.swap ..).cons key)
    calc
      List.Perm (node :: key :: info :: soS.live) ([key, info, node] ++ (soS.owned ++ base)) :=
        order.append owns.owned
      List.Perm _ _ := by
        rw [← List.append_assoc]
        exact added.symm.append_right base
  distinct := by
    subst first second third
    exact safeMalloc_nodup fresh (safeMalloc_nodup fresh (safeMalloc_nodup fresh owns.distinct))

theorem Owns.initSock (owns : soS.Owns base) (fresh : ∀ live, malloc live ∉ live) (sockDes : Int)
    (port : UInt32) : (soS.initSock malloc sockDes port).1.Owns base := by
  unfold SockHeap.initSock
  split
  · exact owns.allocate fresh rfl rfl rfl ((TreeHeap.insert_owned ..).append_right _)
  · exact owns

/-- A new connection beside any tree of sockets with the same blocks. -/
theorem Owns.connection (owns : soS.Owns base) (fresh : ∀ live, malloc live ∉ live)
    {sockRb : TreeHeap intComparison SocketFdStruct}
    (same : sockRb.owned (intDestructor _) = soS.sockRb.owned (intDestructor _)) (fd : Int)
    (value : AcpSocketFdStruct) {info key : Nat} (first : info = malloc soS.live)
    (second : key = malloc (info :: soS.live)) :
    let added := soS.acpSocketRb.insert malloc (key :: info :: soS.live) ⟨key, fd⟩ ⟨info, value⟩
    Owns base ⟨sockRb, added.1, added.2⟩ := by
  apply owns.allocate fresh first second rfl
  rw [same]
  exact ((TreeHeap.insert_owned ..).append_left _).trans (List.perm_append_comm_assoc ..)

theorem Owns.registerSock (owns : soS.Owns base) (fresh : ∀ live, malloc live ∉ live)
    (org listen : Int) : (soS.registerSock malloc org listen).1.Owns base := by
  unfold SockHeap.registerSock
  split
  · exact owns.connection fresh (TreeHeap.setValue_owned Destructor.intDestructor_ofAddress ..) listen _
      rfl rfl
  · exact owns

theorem Owns.copyFd (owns : soS.Owns base) (fresh : ∀ live, malloc live ∉ live)
    (oldFd newFd : Int) : (soS.copyFd malloc oldFd newFd).1.Owns base := by
  unfold SockHeap.copyFd
  split
  · exact owns
  · exact owns.connection fresh rfl newFd _ rfl rfl

/-- The deletion of a connection beside any tree of sockets. -/
theorem deleteConnection {sockRb : TreeHeap intComparison SocketFdStruct} {live : List Nat}
    (rbNodeAcp : soS.acpSocketRb.tree.Node)
    (owned : live.Perm (sockRb.owned (intDestructor _) ++
      (soS.acpSocketRb.owned (intDestructor _) ++ base))) (distinct : live.Nodup) :
    ∃ after, soS.acpSocketRb.delete (intDestructor _) live rbNodeAcp =
        .ok ({ soS.acpSocketRb with tree := soS.acpSocketRb.tree.delete rbNodeAcp }, after) ∧
      Owns base ⟨sockRb, { soS.acpSocketRb with tree := soS.acpSocketRb.tree.delete rbNodeAcp },
        after⟩ := by
  obtain ⟨after, done, kept, nodup⟩ :=
    TreeHeap.delete_spec rbNodeAcp (owned.trans (List.perm_append_comm_assoc ..))
  refine ⟨after, done, ?_, nodup distinct⟩
  apply kept.trans
  rw [SockHeap.owned, List.append_assoc]
  exact List.perm_append_comm_assoc ..

/-- The removal of a connection frees the blocks of its nodes, unless the root socket is missing. -/
theorem Owns.unregister (owns : soS.Owns base) (fd : Int) :
    (soS.unregisterSocketDescriptor fd = .error .nullDereference ∧
      BandwidthLimiter.unregisterSocketDescriptor soS.forget fd = .error .nullDereference) ∨
    ∃ next, soS.unregisterSocketDescriptor fd = .ok (next, true) ∧ next.Owns base ∧
      BandwidthLimiter.unregisterSocketDescriptor soS.forget fd = .ok (next.forget, true) := by
  have conn : soS.forget.acpSocketRb.exactQuery fd = _ := soS.acpSocketRb.forget_exactQuery fd
  cases found : soS.acpSocketRb.tree.exactQuery (.onStack fd) with
  | none =>
      rw [found] at conn
      refine .inr ⟨soS, ?_, owns, ?_⟩
      · simp [SockHeap.unregisterSocketDescriptor, found]
      · simp [BandwidthLimiter.unregisterSocketDescriptor, conn]
  | some rbNodeAcp =>
      have root : soS.forget.sockRb.exactQuery
          (soS.acpSocketRb.tree.info rbNodeAcp).value.rootFdNumber = _ :=
        soS.sockRb.forget_exactQuery _
      have connInfo : soS.forget.acpSocketRb.info (soS.acpSocketRb.forgetNode rbNodeAcp) =
          (soS.acpSocketRb.tree.info rbNodeAcp).value := soS.acpSocketRb.forget_info rbNodeAcp
      rw [found, Option.map_some] at conn
      cases rooted : soS.sockRb.tree.exactQuery
          (.onStack (soS.acpSocketRb.tree.info rbNodeAcp).value.rootFdNumber) with
      | none =>
          rw [rooted, Option.map_none] at root
          refine .inl ⟨?_, ?_⟩
          · simp [SockHeap.unregisterSocketDescriptor, found, rooted]
          · simp [BandwidthLimiter.unregisterSocketDescriptor, conn, connInfo, root]
      | some rbNodeOrg =>
          rw [rooted, Option.map_some] at root
          have rootInfo : soS.forget.sockRb.info (soS.sockRb.forgetNode rbNodeOrg) =
              (soS.sockRb.tree.info rbNodeOrg).value := soS.sockRb.forget_info rbNodeOrg
          let old := (soS.sockRb.tree.info rbNodeOrg).value
          let counted := soS.sockRb.setValue rbNodeOrg { old with refCount := old.refCount - 1 }
          have held : soS.live.Perm (counted.owned (intDestructor _) ++
              (soS.acpSocketRb.owned (intDestructor _) ++ base)) := by
            rw [TreeHeap.setValue_owned Destructor.intDestructor_ofAddress, ← List.append_assoc]
            exact owns.owned
          by_cases last : old.refCount - 1 ≤ 0
          · let node : counted.tree.Node := rbNodeOrg
            obtain ⟨live, first, kept, nodup⟩ := TreeHeap.delete_spec node held
            obtain ⟨after, second, owned⟩ := deleteConnection rbNodeAcp kept (nodup owns.distinct)
            refine .inr ⟨_, ?_, owned, ?_⟩
            · rw [SockHeap.unregisterSocketDescriptor, found]
              simp only [rooted, old, counted, node] at last first second ⊢
              simp [last, first, second, Bind.bind, Except.bind, pure, Except.pure]
            · rw [BandwidthLimiter.unregisterSocketDescriptor, conn]
              simp only [connInfo, root]
              rw [rootInfo, if_pos last]
              have roots : TreeHeap.forget { counted with tree := counted.tree.delete node } = _ :=
                soS.sockRb.forget_delete_setValue rbNodeOrg _
              simp only [forget, roots, soS.acpSocketRb.forget_delete]
              rfl
          · obtain ⟨after, second, owned⟩ := deleteConnection rbNodeAcp held owns.distinct
            refine .inr ⟨_, ?_, owned, ?_⟩
            · rw [SockHeap.unregisterSocketDescriptor, found]
              simp only [rooted, old, counted] at last second ⊢
              simp [last, second, Bind.bind, Except.bind, pure, Except.pure]
            · rw [BandwidthLimiter.unregisterSocketDescriptor, conn]
              simp only [connInfo, root]
              rw [rootInfo, if_neg last]
              simp only [forget, soS.acpSocketRb.forget_delete, counted, TreeHeap.forget_setValue]
              rfl

/-- Both trees go back with all their blocks. -/
theorem cleanSock_spec (owned : soS.live.Perm (soS.owned ++ base)) :
    ∃ after, soS.cleanSock = .ok after ∧ after.Perm base := by
  rw [SockHeap.owned, List.append_assoc] at owned
  obtain ⟨live, first, kept, -⟩ :=
    TreeHeap.destroy_spec (owned.trans (List.perm_append_comm_assoc ..))
  obtain ⟨after, second, left, -⟩ := TreeHeap.destroy_spec kept
  refine ⟨after, ?_, left⟩
  rw [SockHeap.cleanSock, first]
  exact second

end SockHeap

/-- An operation on the heap ends the process where the operation on the store does, it frees no
block that is not in use, and it keeps the ownership. -/
theorem SockOp.applyIn_spec {malloc : List Nat → Nat} {soS : SockHeap} {base : List Nat}
    (owns : soS.Owns base) (fresh : ∀ live, malloc live ∉ live) (op : SockOp) :
    (op.applyIn malloc soS = .error .nullDereference ∧
      op.apply soS.forget = .error .nullDereference) ∨
    ∃ next, op.applyIn malloc soS = .ok next ∧ next.Owns base ∧
      op.apply soS.forget = .ok next.forget := by
  cases op with
  | initSock sockDes port =>
      exact .inr ⟨_, rfl, owns.initSock fresh sockDes port,
        congrArg _ (SockHeap.forget_initSock sockDes port).symm⟩
  | registerSock org listen =>
      exact .inr ⟨_, rfl, owns.registerSock fresh org listen,
        congrArg _ (SockHeap.forget_registerSock org listen).symm⟩
  | copyFd oldFd newFd =>
      exact .inr ⟨_, rfl, owns.copyFd fresh oldFd newFd,
        congrArg _ (SockHeap.forget_copyFd oldFd newFd).symm⟩
  | unregister fd =>
      rcases owns.unregister fd with ⟨ended, same⟩ | ⟨next, done, kept, same⟩
      · left
        simp [SockOp.applyIn, SockOp.apply, ended, same, Except.map]
      · right
        exact ⟨next, by simp [SockOp.applyIn, done, Except.map], kept,
          by simp [SockOp.apply, same, Except.map]⟩

end BandwidthLimiter
