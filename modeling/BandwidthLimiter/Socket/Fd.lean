import BandwidthLimiter.Tree.RbTree
import BandwidthLimiter.Tree.RbTreeHelper

namespace BandwidthLimiter
open Foundation

/-- The two ways in which the code ends the process. -/
inductive Stop where
  | nullDereference
  | exit
  deriving DecidableEq, Repr

structure Timespec where
  tvSec : Int
  tvNsec : Int
  deriving DecidableEq, Repr

/-- The memory that `safe_malloc` returns holds zeros. -/
def Timespec.zero : Timespec := ⟨0, 0⟩

structure SocketFdStruct where
  port : UInt32
  refCount : Int
  deriving DecidableEq, Repr

structure AcpSocketFdStruct where
  rootFdNumber : Int
  startTimeActiveRead : Timespec
  startTimeActiveWrite : Timespec
  deriving DecidableEq, Repr

structure SockStruct where
  sockRb : RbTree intComparison SocketFdStruct
  acpSocketRb : RbTree intComparison AcpSocketFdStruct

def setupSockEnv : SockStruct where
  sockRb := .create intComparison SocketFdStruct
  acpSocketRb := .create intComparison AcpSocketFdStruct

def initSock (soS : SockStruct) (sockDes : Int) (port : UInt32) : SockStruct × Bool :=
  match soS.sockRb.exactQuery sockDes with
  | none => ({ soS with sockRb := soS.sockRb.insert sockDes ⟨port, 0⟩ }, true)
  | some _ => (soS, false)

def registerSock (soS : SockStruct) (orgSocketFd listenSockFd : Int) : SockStruct × Bool :=
  match soS.sockRb.exactQuery orgSocketFd, soS.acpSocketRb.exactQuery listenSockFd with
  | some rbNodeOrg, none =>
      let socStr := soS.sockRb.info rbNodeOrg
      ({ sockRb := soS.sockRb.setInfo rbNodeOrg { socStr with refCount := socStr.refCount + 1 }
         acpSocketRb := soS.acpSocketRb.insert listenSockFd ⟨orgSocketFd, .zero, .zero⟩ }, true)
  | _, _ => (soS, false)

def isAcpSockFdPresent (soS : SockStruct) (acpSockFd : Int) : Bool :=
  (soS.acpSocketRb.exactQuery acpSockFd).isSome

/-- The copy keeps the reference count of the root socket as it is. -/
def copyFd (soS : SockStruct) (oldFd newFd : Int) : SockStruct × Bool :=
  match soS.acpSocketRb.exactQuery oldFd with
  | none => (soS, false)
  | some rbNodeAcp =>
      let oldSocStr := soS.acpSocketRb.info rbNodeAcp
      ({ soS with acpSocketRb := soS.acpSocketRb.insert newFd oldSocStr }, true)

/-- A missing connection gives `false`; a missing root goes past the wrong NULL test. -/
def getDestPort (soS : SockStruct) (acpSockFd : Int) : Except Stop (Option UInt32) :=
  match soS.acpSocketRb.exactQuery acpSockFd with
  | none => .ok none
  | some rbNodeAcp =>
      let acpSocStr := soS.acpSocketRb.info rbNodeAcp
      match soS.sockRb.exactQuery acpSocStr.rootFdNumber with
      | none => .error .nullDereference
      | some rbNodeOrg => .ok (some (soS.sockRb.info rbNodeOrg).port)

def unregisterSocketDescriptor (soS : SockStruct) (acpSockFd : Int) :
    Except Stop (SockStruct × Bool) :=
  match soS.acpSocketRb.exactQuery acpSockFd with
  | none => .ok (soS, true)
  | some rbNodeAcp =>
      let acpSocStr := soS.acpSocketRb.info rbNodeAcp
      -- The source tests `rb_node_acp` again, so a missing root is used without a test.
      match soS.sockRb.exactQuery acpSocStr.rootFdNumber with
      | none => .error .nullDereference
      | some rbNodeOrg =>
          let old := soS.sockRb.info rbNodeOrg
          let socStr := { old with refCount := old.refCount - 1 }
          let counted := soS.sockRb.setInfo rbNodeOrg socStr
          .ok ({ sockRb := if socStr.refCount ≤ 0 then counted.delete rbNodeOrg else counted
                 acpSocketRb := soS.acpSocketRb.delete rbNodeAcp }, true)

end BandwidthLimiter
