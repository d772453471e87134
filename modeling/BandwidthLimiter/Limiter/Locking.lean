import BandwidthLimiter.Foundation.Monitor
import BandwidthLimiter.Limiter.Overload

namespace BandwidthLimiter
open Foundation

/-- The functions of the C library that the start looks up. -/
inductive Symbol where
  | socket
  | close
  | read
  | recv
  | readv
  | recvfrom
  | write
  | send
  | writev
  | sendto
  | select
  | poll
  | accept
  | dup
  | dup2
  | bind
  | connect
  deriving DecidableEq, Repr

/-- The variables that the threads share: the marks of the start, the controller, whose pointers are
NULL at first, and the pointers to the functions of the C library. -/
structure Globals where
  init0 : Bool
  init1 : Bool
  insContStr : Option ControllerStruct
  libc : Symbol → Bool

def Globals.initial : Globals := ⟨false, false, none, fun _ => false⟩

/-- The calls out of the library. The arguments are those that are numbers. -/
inductive Request where
  | libc (symbol : Symbol) (arguments : List Int)
  | clock
  | nanosleep (request : Timespec)
  | dlopen
  | dlsym (symbol : Symbol)

def Request.Answer : Request → Type
  | .libc _ _ => Int
  | .clock => Timespec
  | .nanosleep _ => Unit
  | .dlopen => Bool
  | .dlsym _ => Bool

/-- The ends of the process, with the use of a controller before the start apart. -/
inductive Ending where
  | stop (stop : Stop)
  | nullController
  deriving DecidableEq, Repr

abbrev Thread := Program Globals Ending Request Request.Answer

namespace Thread

def exit : Thread := .access fun _ => .error (.stop .exit)

/-- An access through the pointers of the controller. -/
def controller {R : Type} (body : ControllerStruct → Except Stop (ControllerStruct × R))
    (next : R → Thread) : Thread :=
  .access fun globals =>
    match globals.insContStr with
    | none => .error .nullController
    | some contStr =>
        match body contStr with
        | .error stop => .error (.stop stop)
        | .ok (contStr, result) => .ok ({ globals with insContStr := some contStr }, next result)

/-- A read through the pointers of the controller. -/
def query {R : Type} (body : ControllerStruct → R) (next : R → Thread) : Thread :=
  controller (fun contStr => .ok (contStr, body contStr)) next

/-- A write through the pointers of the controller. -/
def update (body : ControllerStruct → ControllerStruct) (next : Thread) : Thread :=
  controller (fun contStr => .ok (body contStr, ())) fun _ => next

def getDestPort (fd : Int) (next : Option UInt32 → Thread) : Thread :=
  controller (fun contStr => (BandwidthLimiter.getDestPort contStr.socStr fd).map (contStr, ·)) next

section Start

/-- The pointers that `init_overload` loads, in its order. -/
def symbols : List Symbol :=
  [.socket, .close, .read, .recv, .readv, .recvfrom, .write, .send, .writev, .sendto, .select, .poll,
    .accept, .dup, .dup2, .bind, .connect]

/-- A function that the C library lacks ends the process. -/
def loadAddr : List Symbol → Thread → Thread
  | [], next => next
  | symbol :: rest, next =>
      .ask (.dlsym symbol) fun (found : Bool) =>
        if found then
          .access fun globals =>
            .ok ({ globals with libc := fun other => if other = symbol then true else globals.libc other },
              loadAddr rest next)
        else exit

/-- The start of the library; `start` is the result of `__init_env__` with the controller. The handler
`init_clean_up` that it registers runs at the exit of the process, which the model does not follow. -/
def initOverload (start : Except Stop (ControllerStruct × Bool)) (next : Thread) : Thread :=
  .access fun globals => .ok ({ globals with init0 := true },
    .access fun globals =>
      match start with
      | .error stop => .error (.stop stop)
      | .ok (contStr, returnVal) => .ok ({ globals with insContStr := some contStr },
          if returnVal then
            .ask .dlopen fun (handle : Bool) =>
              if handle then
                loadAddr symbols (.access fun globals => .ok ({ globals with init1 := true }, next))
              else exit
          else .unlock exit))

/-- The macro `INIT_ENV`. -/
def initEnv (start : Except Stop (ControllerStruct × Bool)) (next : Thread) : Thread :=
  .access fun globals =>
    .ok (globals, if !globals.init0 && !globals.init1 then initOverload start next else next)

end Start

section Sections

/-- The steps of `get_port_remainf_byte`; the clock is read only for a limited port. -/
def getPortRemainfByte (fd : Int) (flag : Bool) (next : Int → Thread) : Thread :=
  getDestPort fd fun port =>
    match port with
    | none => exit
    | some port =>
        query (fun contStr => if !flag then getInitUpLimit contStr.regEnvStr port
            else getInitDownLimit contStr.regEnvStr port) fun limit =>
          let window (size : Int) := update (fun contStr =>
            { contStr with regEnvStr := (setByteCountWindow contStr.regEnvStr port size flag).1 })
            (next limit)
          if limit ≠ -1 then
            .ask .clock fun currentTime =>
              query (fun contStr => getTimeVal contStr.regEnvStr port flag) fun prevTime =>
                let timeDiff := timeDifference prevTime currentTime
                if timeDiff > nanoMult then window limit
                else
                  query (fun contStr =>
                    getRemainingByteCountForCurrentWindow contStr.regEnvStr port flag) fun left =>
                      if left ≤ 0 then
                        let delaySleep := nanoMult - timeDiff
                        .ask (.nanosleep ⟨delaySleep.tdiv nanoMult, delaySleep.tmod nanoMult⟩) fun _ =>
                          window limit
                      else next left
          else window 0

/-- The steps of `pre_op`, with its result and the demand. -/
def preOp (fd demand : Int) (flag : Bool) (next : Bool → Int → Thread) : Thread :=
  query (fun contStr => isAcpSockFdPresent contStr.socStr fd) fun present =>
    if present then
      getPortRemainfByte fd flag fun accessByteCount =>
        next true (if demand ≥ accessByteCount then accessByteCount else demand)
    else next false demand

/-- The steps of `do_update`. -/
def doUpdate (byteCount fd : Int) (flag : Bool) (next : Thread) : Thread :=
  if byteCount > 0 then
    getDestPort fd fun port =>
      match port with
      | none => next
      | some port => update (fun contStr => { contStr with
          regEnvStr := (updateByteCountCurrentWindow contStr.regEnvStr port byteCount flag).1 }) next
  else next

/-- The steps of `update_time`; the clock is read only for a port with an entry. -/
def updateTime (fd : Int) (flag : Bool) (next : Thread) : Thread :=
  getDestPort fd fun port =>
    match port with
    | none => next
    | some port =>
        query (fun contStr => (contStr.regEnvStr.get port).isSome) fun found =>
          if found then
            .ask .clock fun ts => update (fun contStr => { contStr with
              regEnvStr := (updateTimeVal contStr.regEnvStr port flag ts).1 }) next
          else next

/-- The steps of `regis_new_created_socket`. -/
def regisNewCreatedSocket (fd : Int) (port : UInt32) (next : Bool → Thread) : Thread :=
  query (fun contStr => isPortRegistered contStr.regEnvStr port) fun registered =>
    if registered then
      controller (fun contStr =>
        let (socStr, done) := initSock contStr.socStr fd port
        .ok ({ contStr with socStr }, done)) next
    else next false

end Sections

section Wrappers

variable (start : Except Stop (ControllerStruct × Bool)) (next : Int → Thread)

/-- The wrappers that only start the library: `socket`, `readv`, `writev`, `select` and `poll`. -/
def passThrough (symbol : Symbol) (arguments : List Int) : Thread :=
  .lock (initEnv start (.unlock (.ask (.libc symbol arguments) next)))

/-- The data wrappers, with the libc function and the direction. -/
def transfer (symbol : Symbol) (flag : Bool) (fd : Int) (count : Nat) : Thread :=
  .lock (initEnv start (preOp fd (ssizeT count) flag fun active demand =>
    if active then
      .unlock (.ask (.libc symbol [fd, sizeT demand]) fun (moved : Int) =>
        .lock (if moved > 0 then doUpdate moved fd flag (updateTime fd flag (.unlock (next moved)))
          else .unlock (next moved)))
    else .unlock (.ask (.libc symbol [fd, count]) next)))

/-- A wrapper that registers the result of libc under the lock, unless it is an error. -/
def afterwards (symbol : Symbol) (arguments : List Int)
    (body : Int → ControllerStruct → ControllerStruct) : Thread :=
  .lock (initEnv start (.unlock (.ask (.libc symbol arguments) fun (result : Int) =>
    if result ≠ -1 then .lock (update (body result) (.unlock (next result))) else next result)))

def close (fd : Int) : Thread :=
  .lock (initEnv start (.unlock (.ask (.libc .close [fd]) fun (retVal : Int) =>
    .lock (controller (fun contStr => (unregisterSocketDescriptor contStr.socStr fd).map
      fun result => ({ contStr with socStr := result.1 }, result.2)) fun _ => .unlock (next retVal)))))

def accept (fd : Int) : Thread :=
  afterwards start next .accept [fd] fun acpFd contStr =>
    { contStr with socStr := (registerSock contStr.socStr fd acpFd).1 }

def dup (oldFd : Int) : Thread :=
  afterwards start next .dup [oldFd] fun newFd contStr => funcDupManager contStr oldFd newFd

def dup2 (oldFd newFd : Int) : Thread :=
  afterwards start next .dup2 [oldFd, newFd] fun _ contStr => funcDupManager contStr oldFd newFd

def bind (fd : Int) (addr : Sockaddr) : Thread :=
  .lock (initEnv start (regisNewCreatedSocket fd addr.port fun _ =>
    .unlock (.ask (.libc .bind [fd]) next)))

def connect (fd : Int) (addr : Sockaddr) : Thread :=
  .lock (initEnv start (regisNewCreatedSocket fd addr.port fun done =>
    let call : Thread := .unlock (.ask (.libc .connect [fd]) next)
    if done then
      update (fun contStr => { contStr with socStr := (registerSock contStr.socStr fd fd).1 }) call
    else call))

end Wrappers

end Thread

/-- A call of a wrapper with its arguments. -/
inductive Invocation where
  | socket (domain type protocol : Int)
  | close (fd : Int)
  | read (fd : Int) (count : Nat)
  | recv (fd : Int) (len : Nat)
  | readv (fd iovCount : Int)
  | recvfrom (fd : Int) (len : Nat)
  | write (fd : Int) (len : Nat)
  | send (fd : Int) (len : Nat)
  | writev (fd iovCount : Int)
  | sendto (fd : Int) (len : Nat)
  | select (nfds : Int)
  | poll (nfds timeout : Int)
  | accept (fd : Int)
  | dup (oldFd : Int)
  | dup2 (oldFd newFd : Int)
  | bind (fd : Int) (addr : Sockaddr)
  | connect (fd : Int) (addr : Sockaddr)

/-- The steps of a wrapper; the result goes on to the caller. -/
def Invocation.thread (start : Except Stop (ControllerStruct × Bool)) (next : Int → Thread) :
    Invocation → Thread
  | .socket domain type protocol => .passThrough start next .socket [domain, type, protocol]
  | .close fd => .close start next fd
  | .read fd count => .transfer start next .read true fd count
  | .recv fd len => .transfer start next .recv true fd len
  | .readv fd iovCount => .passThrough start next .readv [fd, iovCount]
  | .recvfrom fd len => .transfer start next .recvfrom true fd len
  | .write fd len => .transfer start next .write false fd len
  | .send fd len => .transfer start next .send false fd len
  | .writev fd iovCount => .passThrough start next .writev [fd, iovCount]
  | .sendto fd len => .transfer start next .sendto false fd len
  | .select nfds => .passThrough start next .select [nfds]
  | .poll nfds timeout => .passThrough start next .poll [nfds, timeout]
  | .accept fd => .accept start next fd
  | .dup oldFd => .dup start next oldFd
  | .dup2 oldFd newFd => .dup2 start next oldFd newFd
  | .bind fd addr => .bind start next fd addr
  | .connect fd addr => .connect start next fd addr

/-- A client thread goes on to a next call that depends on the results so far. -/
inductive Client where
  | stop
  | call (invocation : Invocation) (next : Int → Client)

def Client.thread (start : Except Stop (ControllerStruct × Bool)) : Client → Thread
  | .stop => .done
  | .call invocation next => invocation.thread start fun result => (next result).thread start

end BandwidthLimiter
