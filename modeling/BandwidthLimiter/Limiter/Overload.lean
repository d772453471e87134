import BandwidthLimiter.Limiter.Interface
import Mathlib.Algebra.Group.Int.Defs

namespace BandwidthLimiter
open Foundation

/-- A length becomes negative from the upper half of its range on. -/
def ssizeT (count : Nat) : Int :=
  if count % 2 ^ 64 < 2 ^ 63 then ((count % 2 ^ 64 : Nat) : Int)
  else ((count % 2 ^ 64 : Nat) : Int) - 2 ^ 64

/-- A negative demand becomes a huge length. -/
def sizeT (demand : Int) : Nat := (demand % 2 ^ 64).toNat

/-- A socket address with its family and the two bytes after it. -/
structure Sockaddr where
  saFamily : UInt16
  portHigh : UInt8
  portLow : UInt8
  deriving DecidableEq, Repr

def afInet : UInt16 := 2

/-- The port field holds the high byte first. -/
def ntohs (high low : UInt8) : UInt32 := high.toUInt32 * 256 + low.toUInt32

/-- Both structures keep the port in the two bytes after the family. -/
def Sockaddr.sinPort (addr : Sockaddr) : UInt32 := ntohs addr.portHigh addr.portLow

def Sockaddr.sin6Port (addr : Sockaddr) : UInt32 := ntohs addr.portHigh addr.portLow

def Sockaddr.port (addr : Sockaddr) : UInt32 :=
  if addr.saFamily = afInet then addr.sinPort else addr.sin6Port

variable (contStr : ControllerStruct)

/-- The locked section of `close` after the libc call. -/
def close (fd : Int) : Except Stop ControllerStruct :=
  (unregisterSocketDescriptor contStr.socStr fd).map fun result =>
    { contStr with socStr := result.1 }

/-- The locked section of `accept` after a libc call with the result `acpFd`. -/
def accept (fd acpFd : Int) : ControllerStruct :=
  if acpFd ≠ -1 then { contStr with socStr := (registerSock contStr.socStr fd acpFd).1 }
  else contStr

/-- The locked section of `dup` after a libc call with the result `newFd`. -/
def dup (oldFd newFd : Int) : ControllerStruct :=
  if newFd ≠ -1 then funcDupManager contStr oldFd newFd else contStr

/-- The locked section of `dup2`; the libc result decides whether it runs. -/
def dup2 (oldFd newFd returnVal : Int) : ControllerStruct :=
  if returnVal ≠ -1 then funcDupManager contStr oldFd newFd else contStr

/-- The locked section of `bind` before the libc call. -/
def bind (fd : Int) (addr : Sockaddr) : ControllerStruct :=
  (regisNewCreatedSocket contStr fd addr.port).1

/-- The locked section of `connect` before the libc call. -/
def connect (fd : Int) (addr : Sockaddr) : ControllerStruct :=
  let (contStr, done) := regisNewCreatedSocket contStr fd addr.port
  if done then { contStr with socStr := (registerSock contStr.socStr fd fd).1 } else contStr

/-- The locked section of the data wrappers before the libc call. -/
def enter (flag : Bool) (fd : Int) (count : Nat) (now : Timespec) :
    Except Stop (ControllerStruct × Grant) := preOp contStr fd (ssizeT count) flag now

/-- The length that a data wrapper passes to libc. -/
def libcLength (count : Nat) (grant : Grant) : Nat :=
  if grant.active then sizeT grant.demand else count

/-- The locked section of the data wrappers after a libc call with the result `moved`. -/
def leave (flag : Bool) (fd moved : Int) (now : Timespec) : Except Stop ControllerStruct :=
  if moved > 0 then
    match doUpdate contStr moved fd flag with
    | .error stop => .error stop
    | .ok contStr => (updateTime contStr fd flag now).map Prod.fst
  else .ok contStr

/-- A data wrapper; libc maps the length to its result and the clock reading after it. -/
def transfer (flag : Bool) (fd : Int) (count : Nat) (now : Timespec) (libc : Nat → Int × Timespec) :
    Except Stop (ControllerStruct × Int) :=
  match enter contStr flag fd count now with
  | .error stop => .error stop
  | .ok (contStr, grant) =>
      let (moved, later) := libc (libcLength count grant)
      if grant.active then (leave contStr flag fd moved later).map fun contStr => (contStr, moved)
      else .ok (contStr, moved)

def read := transfer contStr true
def recv := transfer contStr true
def recvfrom := transfer contStr true
def write := transfer contStr false
def send := transfer contStr false
def sendto := transfer contStr false

/-- The vectored wrappers call libc without a section of their own. -/
def readv (_fd : Int) (iovCount : Nat) (libc : Nat → Int × Timespec) : ControllerStruct × Int :=
  (contStr, (libc iovCount).1)

def writev (_fd : Int) (iovCount : Nat) (libc : Nat → Int × Timespec) : ControllerStruct × Int :=
  (contStr, (libc iovCount).1)

end BandwidthLimiter
