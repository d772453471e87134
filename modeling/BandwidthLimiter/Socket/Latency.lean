import BandwidthLimiter.Socket.StoreRun
import BandwidthLimiter.Tree.Relabel

namespace BandwidthLimiter
open Foundation

namespace AcpSocketFdStruct

/-- The start time of the last request in a direction. -/
def startTime (acpSocStr : AcpSocketFdStruct) (flag : Bool) : Timespec :=
  if flag then acpSocStr.startTimeActiveRead else acpSocStr.startTimeActiveWrite

def setStartTime (acpSocStr : AcpSocketFdStruct) (flag : Bool) (startTime : Timespec) :
    AcpSocketFdStruct :=
  if flag then { acpSocStr with startTimeActiveRead := startTime }
  else { acpSocStr with startTimeActiveWrite := startTime }

end AcpSocketFdStruct

def insertStartTimeOfPacket (soS : SockStruct) (acpSocketFd : Int) (flag : Bool)
    (startTime : Timespec) : SockStruct × Bool :=
  match soS.acpSocketRb.exactQuery acpSocketFd with
  | none => (soS, false)
  | some rbNodeAcp =>
      let acpSocStr := (soS.acpSocketRb.info rbNodeAcp).setStartTime flag startTime
      ({ soS with acpSocketRb := soS.acpSocketRb.setInfo rbNodeAcp acpSocStr }, true)

/-- Without a connection nothing is written through the pointer of the caller. -/
def getStartTimeOfPacket (soS : SockStruct) (acpSocketFd : Int) (flag : Bool) : Option Timespec :=
  match soS.acpSocketRb.exactQuery acpSocketFd with
  | none => none
  | some rbNodeAcp => some ((soS.acpSocketRb.info rbNodeAcp).startTime flag)

/-- A connection without its times. -/
def AcpSocketFdStruct.untimed (acpSocStr : AcpSocketFdStruct) : AcpSocketFdStruct :=
  ⟨acpSocStr.rootFdNumber, .zero, .zero⟩

def SockStruct.untimed (soS : SockStruct) : SockStruct :=
  { soS with acpSocketRb := soS.acpSocketRb.mapInfo AcpSocketFdStruct.untimed }

section Store

variable (soS : SockStruct)

theorem untimed_exactQuery (fd : Int) : soS.untimed.acpSocketRb.exactQuery fd =
    (soS.acpSocketRb.exactQuery fd).map (soS.acpSocketRb.mapNode AcpSocketFdStruct.untimed) :=
  soS.acpSocketRb.mapInfo_exactQuery AcpSocketFdStruct.untimed fd

theorem untimed_info (node : soS.acpSocketRb.Node) :
    soS.untimed.acpSocketRb.info (soS.acpSocketRb.mapNode AcpSocketFdStruct.untimed node) =
      (soS.acpSocketRb.info node).untimed :=
  soS.acpSocketRb.mapInfo_info AcpSocketFdStruct.untimed node

/-- The roots have no times. -/
theorem untimed_sockRb (fd : Int) :
    soS.untimed.sockRb.exactQuery fd = soS.sockRb.exactQuery fd := rfl

theorem untimed_initSock (fd : Int) (port : UInt32) : initSock soS.untimed fd port =
    ((initSock soS fd port).1.untimed, (initSock soS fd port).2) := by
  unfold initSock
  rw [untimed_sockRb]
  cases soS.sockRb.exactQuery fd <;> rfl

theorem untimed_registerSock (org listen : Int) : registerSock soS.untimed org listen =
    ((registerSock soS org listen).1.untimed, (registerSock soS org listen).2) := by
  unfold registerSock
  rw [untimed_sockRb, untimed_exactQuery]
  cases soS.sockRb.exactQuery org with
  | none => rfl
  | some rbNodeOrg =>
      cases soS.acpSocketRb.exactQuery listen with
      | some node => rfl
      | none => simp [SockStruct.untimed, RbTree.mapInfo_insert, AcpSocketFdStruct.untimed]

theorem untimed_copyFd (oldFd newFd : Int) : copyFd soS.untimed oldFd newFd =
    ((copyFd soS oldFd newFd).1.untimed, (copyFd soS oldFd newFd).2) := by
  unfold copyFd
  rw [untimed_exactQuery]
  cases soS.acpSocketRb.exactQuery oldFd with
  | none => rfl
  | some rbNodeAcp =>
      simp only [Option.map_some, untimed_info]
      simp only [SockStruct.untimed, RbTree.mapInfo_insert]

theorem untimed_getDestPort (fd : Int) : getDestPort soS.untimed fd = getDestPort soS fd := by
  unfold getDestPort
  rw [untimed_exactQuery]
  cases soS.acpSocketRb.exactQuery fd with
  | none => rfl
  | some rbNodeAcp =>
      simp only [Option.map_some, untimed_info, AcpSocketFdStruct.untimed]
      rw [untimed_sockRb]
      cases soS.sockRb.exactQuery (soS.acpSocketRb.info rbNodeAcp).rootFdNumber <;> rfl

theorem untimed_present (fd : Int) :
    isAcpSockFdPresent soS.untimed fd = isAcpSockFdPresent soS fd := by
  unfold isAcpSockFdPresent
  rw [untimed_exactQuery]
  cases soS.acpSocketRb.exactQuery fd <;> rfl

theorem untimed_unregister (fd : Int) : unregisterSocketDescriptor soS.untimed fd =
    (unregisterSocketDescriptor soS fd).map fun result => (result.1.untimed, result.2) := by
  unfold unregisterSocketDescriptor
  rw [untimed_exactQuery]
  cases soS.acpSocketRb.exactQuery fd with
  | none => rfl
  | some rbNodeAcp =>
      simp only [Option.map_some, untimed_info, AcpSocketFdStruct.untimed]
      rw [untimed_sockRb]
      cases soS.sockRb.exactQuery (soS.acpSocketRb.info rbNodeAcp).rootFdNumber with
      | none => rfl
      | some rbNodeOrg =>
          simp only [Except.map, SockStruct.untimed, RbTree.mapInfo_delete]
          rfl

/-- The start of a request changes times only. -/
theorem untimed_insertStartTime (fd : Int) (flag : Bool) (now : Timespec) :
    (insertStartTimeOfPacket soS fd flag now).1.untimed = soS.untimed := by
  unfold insertStartTimeOfPacket
  cases soS.acpSocketRb.exactQuery fd with
  | none => rfl
  | some rbNodeAcp =>
      have same : ((soS.acpSocketRb.info rbNodeAcp).setStartTime flag now).untimed =
          (soS.acpSocketRb.info rbNodeAcp).untimed := by
        cases flag <;> rfl
      exact congrArg (SockStruct.mk soS.sockRb)
        (soS.acpSocketRb.mapInfo_setInfo_same _ rbNodeAcp same)

end Store

section Times

variable {soS last : SockStruct} {fd : Int} {flag : Bool} {time : Timespec}

/-- The descriptor has one connection, with this time. -/
def SockStruct.Started (soS : SockStruct) (fd : Int) (flag : Bool) (time : Timespec) : Prop :=
  ∃ acp, (soS.acpSocketRb.entries.filter fun entry => entry.1 = fd).Perm [(fd, acp)] ∧
    acp.startTime flag = time

namespace SockStruct.Started

theorem get (started : soS.Started fd flag time) :
    ∃ acp, soS.acpSocketRb.get fd = some acp ∧ acp.startTime flag = time := by
  obtain ⟨acp, sole, same⟩ := started
  cases found : soS.acpSocketRb.get fd with
  | none =>
      have mem := (List.mem_filter.mp (sole.symm.subset List.mem_cons_self)).1
      exact absurd (List.mem_map_of_mem mem) (RbTree.get_eq_none_iff_absent.mp found)
  | some other =>
      have mem := sole.subset (List.mem_filter.mpr ⟨RbTree.mem_of_get found, by simp⟩)
      obtain rfl := (Prod.mk.inj (List.mem_singleton.mp mem)).2
      exact ⟨other, rfl, same⟩

/-- The time is read back. -/
theorem read (started : soS.Started fd flag time) : getStartTimeOfPacket soS fd flag = some time := by
  obtain ⟨acp, found, same⟩ := started.get
  obtain ⟨node, present, -, rfl⟩ := RbTree.exists_of_get found
  simp [getStartTimeOfPacket, present, same]

/-- Another pair in the tree changes nothing for the descriptor. -/
theorem insert (started : soS.Started fd flag time) {other : Int} (different : other ≠ fd)
    (sockRb : RbTree intComparison SocketFdStruct) (acp : AcpSocketFdStruct) :
    SockStruct.Started ⟨sockRb, soS.acpSocketRb.insert other acp⟩ fd flag time := by
  obtain ⟨own, sole, same⟩ := started
  have added := (soS.acpSocketRb.entries_insert other acp).filter fun entry => entry.1 = fd
  rw [List.filter_cons_of_neg (by simpa using different)] at added
  exact ⟨own, added.trans sole, same⟩

theorem delete (started : soS.Started fd flag time) (node : soS.acpSocketRb.Node)
    (different : soS.acpSocketRb.key node ≠ fd) (sockRb : RbTree intComparison SocketFdStruct) :
    SockStruct.Started ⟨sockRb, soS.acpSocketRb.delete node⟩ fd flag time := by
  obtain ⟨own, sole, same⟩ := started
  have removed := (soS.acpSocketRb.entries_delete node).filter fun entry => entry.1 = fd
  rw [List.filter_cons_of_neg (by simpa using different)] at removed
  exact ⟨own, removed.symm.trans sole, same⟩

end SockStruct.Started

/-- The operation neither removes the connection nor gives its number to a copy. -/
def SockOp.Spares (fd : Int) : SockOp → Prop
  | .copyFd _ newFd => newFd ≠ fd
  | .unregister acpSockFd => acpSockFd ≠ fd
  | _ => True

theorem SockStep.started {op : SockOp} (started : soS.Started fd flag time)
    (taken : SockStep soS op last) (spares : op.Spares fd) : last.Started fd flag time := by
  cases op with
  | initSock sockDes port =>
      obtain rfl := Except.ok.inj taken
      unfold BandwidthLimiter.initSock
      split <;> exact started
  | registerSock org listen =>
      obtain rfl := Except.ok.inj taken
      cases found : soS.acpSocketRb.get listen with
      | some acp => rwa [registerSock_old found]
      | none =>
          have different : listen ≠ fd := by
            rintro rfl
            obtain ⟨acp, present, -⟩ := started.get
            simp [found] at present
          unfold BandwidthLimiter.registerSock
          split
          · exact started.insert different _ _
          · exact started
  | copyFd oldFd newFd =>
      obtain rfl := Except.ok.inj taken
      unfold BandwidthLimiter.copyFd
      split
      · exact started
      · exact started.insert spares _ _
  | unregister acpSockFd =>
      simp only [SockStep, SockOp.apply, unregisterSocketDescriptor] at taken
      split at taken
      · obtain rfl := Except.ok.inj taken
        exact started
      · rename_i acpNode found
        have key := Comparison.eq_of_zero (RbTree.exactQuery_found found)
        split at taken
        · cases taken
        · obtain rfl := Except.ok.inj taken
          exact started.delete acpNode (key ▸ spares) _

/-- The pairs of a number that occurs once, before and after a write to its connection. -/
theorem filter_setInfo {node : soS.acpSocketRb.Node} (key : soS.acpSocketRb.key node = fd)
    (single : (soS.acpSocketRb.entries.countP fun entry => entry.1 = fd) ≤ 1)
    (acp : AcpSocketFdStruct) :
    (soS.acpSocketRb.entries.filter fun entry => entry.1 = fd) =
        [(fd, soS.acpSocketRb.info node)] ∧
      ((soS.acpSocketRb.setInfo node acp).entries.filter fun entry => entry.1 = fd) = [(fd, acp)] := by
  obtain ⟨first, second, before, after⟩ := soS.acpSocketRb.entries_setInfo node acp
  rw [before, List.countP_append, List.countP_cons, if_pos (by simpa using key)] at single
  have left : (first.filter fun entry => entry.1 = fd) = [] := by
    rw [← List.length_eq_zero_iff, ← List.countP_eq_length_filter]
    omega
  have right : (second.filter fun entry => entry.1 = fd) = [] := by
    rw [← List.length_eq_zero_iff, ← List.countP_eq_length_filter]
    omega
  simp [before, after, left, right, key]

theorem AcpSocketFdStruct.startTime_setStartTime (acp : AcpSocketFdStruct) (way flag : Bool)
    (now : Timespec) : (acp.setStartTime way now).startTime flag =
      if way = flag then now else acp.startTime flag := by
  cases way <;> cases flag <;> rfl

/-- The record of another request. -/
theorem SockStruct.Started.record (started : soS.Started fd flag time) {other : Int} {way : Bool}
    (different : ¬(other = fd ∧ way = flag)) (now : Timespec) :
    (insertStartTimeOfPacket soS other way now).1.Started fd flag time := by
  unfold insertStartTimeOfPacket
  split
  · exact started
  · rename_i node found
    have key := Comparison.eq_of_zero (RbTree.exactQuery_found found)
    obtain ⟨acp, sole, same⟩ := started
    by_cases own : other = fd
    · have single : (soS.acpSocketRb.entries.countP fun entry => entry.1 = fd) ≤ 1 := by
        rw [List.countP_eq_length_filter, sole.length_eq]
        rfl
      obtain ⟨before, after⟩ := filter_setInfo (key.trans own) single
        ((soS.acpSocketRb.info node).setStartTime way now)
      obtain rfl := (Prod.mk.inj (List.singleton_perm_singleton.mp (before ▸ sole))).2
      refine ⟨_, .of_eq after, ?_⟩
      rw [AcpSocketFdStruct.startTime_setStartTime, if_neg fun equal => different ⟨own, equal⟩, same]
    · obtain ⟨first, second, before, after⟩ := soS.acpSocketRb.entries_setInfo node
        ((soS.acpSocketRb.info node).setStartTime way now)
      refine ⟨acp, ?_, same⟩
      rw [before] at sole
      simpa [after, key, own] using sole

/-- The record of a request of the only connection with its number. -/
theorem insertStartTime_started (present : isAcpSockFdPresent soS fd = true)
    (single : (soS.acpSocketRb.entries.countP fun entry => entry.1 = fd) ≤ 1) (flag : Bool)
    (now : Timespec) : (insertStartTimeOfPacket soS fd flag now).1.Started fd flag now := by
  obtain ⟨node, found⟩ := Option.isSome_iff_exists.mp present
  have key := Comparison.eq_of_zero (RbTree.exactQuery_found found)
  obtain ⟨-, after⟩ := filter_setInfo key single ((soS.acpSocketRb.info node).setStartTime flag now)
  simp only [insertStartTimeOfPacket, found]
  refine ⟨_, .of_eq after, ?_⟩
  rw [AcpSocketFdStruct.startTime_setStartTime, if_pos rfl]

end Times

end BandwidthLimiter
