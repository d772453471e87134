import BandwidthLimiter.Socket.Fd

namespace BandwidthLimiter
open Foundation

structure PortStruct where
  upLimit : Int
  bindPort : UInt32
  downLimit : Int
  startTimeRead : Timespec
  startTimeWrite : Timespec
  remainingReadByteForCurrentWindow : Int
  remainingWriteByteForCurrentWindow : Int
  latency : UInt32
  deriving DecidableEq, Repr

/-- A NULL tree is absent; it stays absent when no port is filtered. -/
structure RegisterEnvStruct where
  portRb : Option (RbTree uint32Comparison PortStruct)

/-- One entry of the configuration file. -/
structure PortStr where
  portNo : UInt32
  upLimit : Int
  downLimit : Int
  latency : UInt32
  deriving DecidableEq, Repr

namespace PortStruct

/-- The flag selects the read direction when it is true. -/
def limit (data : PortStruct) (flag : Bool) : Int := if flag then data.downLimit else data.upLimit

def startTime (data : PortStruct) (flag : Bool) : Timespec :=
  if flag then data.startTimeRead else data.startTimeWrite

def remaining (data : PortStruct) (flag : Bool) : Int :=
  if flag then data.remainingReadByteForCurrentWindow
  else data.remainingWriteByteForCurrentWindow

def setStartTime (data : PortStruct) (flag : Bool) (ts : Timespec) : PortStruct :=
  if flag then { data with startTimeRead := ts } else { data with startTimeWrite := ts }

def setRemaining (data : PortStruct) (flag : Bool) (size : Int) : PortStruct :=
  if flag then { data with remainingReadByteForCurrentWindow := size }
  else { data with remainingWriteByteForCurrentWindow := size }

/-- A deduction clips both directions at zero. -/
def deduct (data : PortStruct) (usedBytes : Int) (flag : Bool) : PortStruct :=
  let data := data.setRemaining flag (data.remaining flag - usedBytes)
  let data :=
    if data.remainingReadByteForCurrentWindow < 0 then
      { data with remainingReadByteForCurrentWindow := 0 }
    else data
  if data.remainingWriteByteForCurrentWindow < 0 then
    { data with remainingWriteByteForCurrentWindow := 0 }
  else data

/-- Positive limits count thousands of bytes. -/
def scaled (limit : Int) : Int := if limit > 0 then limit * 1000 else limit

/-- The port entry that both registrations store. -/
def ofLimits (port : UInt32) (up down : Int) (latency : UInt32) : PortStruct where
  upLimit := scaled up
  bindPort := port
  downLimit := scaled down
  startTimeRead := .zero
  startTimeWrite := .zero
  remainingReadByteForCurrentWindow := scaled down
  remainingWriteByteForCurrentWindow := scaled up
  latency := latency

end PortStruct

/-- Registration from the configuration file; equal ports stay as separate entries. -/
def doRegisterFromConfig (entries : List PortStr) : RegisterEnvStruct where
  portRb := some (entries.foldl (fun tree entry => tree.insert entry.portNo
    (.ofLimits entry.portNo entry.upLimit entry.downLimit entry.latency))
    (.create uint32Comparison PortStruct))

/-- Registration from the environment; the arguments are the results of `atoi`. -/
def doRegister (port upLimit downLimit latency : Int) : RegisterEnvStruct :=
  if port = -1 then { portRb := none }
  else
    { portRb := some ((RbTree.create uint32Comparison PortStruct).insert (UInt32.ofInt port)
        (.ofLimits (UInt32.ofInt port) upLimit downLimit (UInt32.ofInt latency))) }

namespace RegisterEnvStruct

/-- The entry that `rb_exact_query` finds, also in a NULL tree. -/
def get (env : RegisterEnvStruct) (port : UInt32) : Option PortStruct :=
  env.portRb.bind fun tree => tree.get port

/-- A write through the information pointer of the found node; `none` when there is no node. -/
def write (env : RegisterEnvStruct) (port : UInt32) (change : PortStruct → PortStruct) :
    Option RegisterEnvStruct :=
  env.portRb.bind fun tree =>
    (tree.exactQuery port).map fun node =>
      { portRb := some (tree.setInfo node (change (tree.info node))) }

end RegisterEnvStruct

variable (env : RegisterEnvStruct) (port : UInt32)

def getInitUpLimit : Int :=
  match env.get port with
  | none => -1
  | some data => data.upLimit

def getInitDownLimit : Int :=
  match env.get port with
  | none => -1
  | some data => data.downLimit

def getTimeVal (flag : Bool) : Timespec :=
  match env.get port with
  | none => ⟨9999, 9999⟩
  | some data => data.startTime flag

/-- The clock call succeeds for the system clock. -/
def updateTimeVal (flag : Bool) (ts : Timespec) : RegisterEnvStruct × Bool :=
  match env.write port fun data => data.setStartTime flag ts with
  | none => (env, false)
  | some env => (env, true)

def getRemainingByteCountForCurrentWindow (flag : Bool) : Int :=
  match env.get port with
  | none => 0
  | some data => data.remaining flag

def updateByteCountCurrentWindow (usedBytes : Int) (flag : Bool) : RegisterEnvStruct × Bool :=
  match env.write port fun data => data.deduct usedBytes flag with
  | none => (env, false)
  | some env => (env, true)

def setByteCountWindow (size : Int) (flag : Bool) : RegisterEnvStruct × Bool :=
  match env.write port fun data => data.setRemaining flag size with
  | none => (env, false)
  | some env => (env, true)

def isPortRegistered : Bool := (env.get port).isSome

end BandwidthLimiter
