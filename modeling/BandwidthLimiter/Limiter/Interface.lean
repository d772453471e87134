import BandwidthLimiter.Port.RegisterEnv

namespace BandwidthLimiter
open Foundation

structure ControllerStruct where
  socStr : SockStruct
  regEnvStr : RegisterEnvStruct

def initEnv (env : RegisterEnvStruct) : ControllerStruct := ⟨setupSockEnv, env⟩

def nanoMult : Int := 1000000000

def timeDifference (oldTime currentTime : Timespec) : Int :=
  (currentTime.tvSec * nanoMult + currentTime.tvNsec) -
    (oldTime.tvSec * nanoMult + oldTime.tvNsec)

variable (contStr : ControllerStruct)

def regisNewCreatedSocket (sockFd : Int) (port : UInt32) : ControllerStruct × Bool :=
  if isPortRegistered contStr.regEnvStr port then
    let (socStr, done) := initSock contStr.socStr sockFd port
    ({ contStr with socStr }, done)
  else (contStr, false)

/-- The remaining bytes of a port together with the sleep that the code requests. -/
structure Window where
  byteCanHandle : Int
  sleepUntil : Option Timespec
  deriving DecidableEq, Repr

/-- The part of `get_port_remainf_byte` after the port is known. -/
def portWindow (env : RegisterEnvStruct) (port : UInt32) (flag : Bool) (currentTime : Timespec) :
    RegisterEnvStruct × Window :=
  let limit := if !flag then getInitUpLimit env port else getInitDownLimit env port
  if limit ≠ -1 then
    let prevTime := getTimeVal env port flag
    let timeDiff := timeDifference prevTime currentTime
    if timeDiff > nanoMult then ((setByteCountWindow env port limit flag).1, ⟨limit, none⟩)
    else
      let left := getRemainingByteCountForCurrentWindow env port flag
      if left ≤ 0 then
        let delaySleep := nanoMult - timeDiff
        let sleepUntil := ⟨delaySleep.tdiv nanoMult, delaySleep.tmod nanoMult⟩
        ((setByteCountWindow env port limit flag).1, ⟨limit, some sleepUntil⟩)
      else (env, ⟨left, none⟩)
  else ((setByteCountWindow env port 0 flag).1, ⟨limit, none⟩)

/-- The caller supplies the clock reading; an unregistered socket ends the process. -/
def getPortRemainfByte (acpSockFd : Int) (flag : Bool) (currentTime : Timespec) :
    Except Stop (ControllerStruct × Window) :=
  match getDestPort contStr.socStr acpSockFd with
  | .error stop => .error stop
  | .ok none => .error .exit
  | .ok (some port) =>
      let (regEnvStr, window) := portWindow contStr.regEnvStr port flag currentTime
      .ok ({ contStr with regEnvStr }, window)

def updateTime (acpSockFd : Int) (flag : Bool) (ts : Timespec) :
    Except Stop (ControllerStruct × Bool) :=
  match getDestPort contStr.socStr acpSockFd with
  | .error stop => .error stop
  | .ok none => .ok (contStr, false)
  | .ok (some port) =>
      let (regEnvStr, done) := updateTimeVal contStr.regEnvStr port flag ts
      .ok ({ contStr with regEnvStr }, done)

/-- The port is looked up only for a positive count. -/
def doUpdate (accessByteCount : Int) (acpSocFd : Int) (flag : Bool) :
    Except Stop ControllerStruct :=
  if accessByteCount > 0 then
    match getDestPort contStr.socStr acpSocFd with
    | .error stop => .error stop
    | .ok none => .ok contStr
    | .ok (some port) =>
        let env := updateByteCountCurrentWindow contStr.regEnvStr port accessByteCount flag
        .ok { contStr with regEnvStr := env.1 }
  else .ok contStr

/-- The result of `pre_op`: the flag for a limited socket, the demand, and the requested sleep. -/
structure Grant where
  active : Bool
  demand : Int
  sleepUntil : Option Timespec
  deriving DecidableEq, Repr

def preOp (acpSockFd : Int) (howManyByteDemand : Int) (flag : Bool) (currentTime : Timespec) :
    Except Stop (ControllerStruct × Grant) :=
  if isAcpSockFdPresent contStr.socStr acpSockFd then
    match getPortRemainfByte contStr acpSockFd flag currentTime with
    | .error stop => .error stop
    | .ok (contStr, window) =>
        let demand :=
          if howManyByteDemand ≥ window.byteCanHandle then window.byteCanHandle
          else howManyByteDemand
        .ok (contStr, ⟨true, demand, window.sleepUntil⟩)
  else .ok (contStr, ⟨false, howManyByteDemand, none⟩)

def funcDupManager (oldFd newFd : Int) : ControllerStruct :=
  { contStr with socStr := (copyFd contStr.socStr oldFd newFd).1 }

end BandwidthLimiter
