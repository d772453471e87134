import BandwidthLimiter.Foundation.Run
import BandwidthLimiter.Limiter.Overload
import BandwidthLimiter.Port.Table
import BandwidthLimiter.Socket.Store

namespace BandwidthLimiter
open Foundation

def Timespec.nanos (ts : Timespec) : Int := ts.tvSec * nanoMult + ts.tvNsec

namespace PortStruct

variable (data : PortStruct) (flag : Bool) (now : Timespec)

/-- The last transfer is more than one second old. -/
def idle : Bool := timeDifference (data.startTime flag) now > nanoMult

/-- A limited direction starts a new window after an idle second or without remaining bytes. -/
def refills : Bool := data.limit flag ≠ -1 && (data.idle flag now || data.remaining flag ≤ 0)

/-- The entry after `pre_op`. -/
def opened : PortStruct :=
  if data.limit flag = -1 then data.setRemaining flag 0
  else if data.refills flag now then data.setRemaining flag (data.limit flag)
  else data

/-- The bytes that `pre_op` offers. -/
def offer : Int :=
  if data.limit flag = -1 then -1
  else if data.refills flag now then data.limit flag
  else data.remaining flag

/-- The sleep that `pre_op` requests. -/
def sleep : Option Timespec :=
  if data.refills flag now && !data.idle flag now then
    let delaySleep := nanoMult - timeDifference (data.startTime flag) now
    some ⟨delaySleep.tdiv nanoMult, delaySleep.tmod nanoMult⟩
  else none

/-- The entry after a transfer. -/
def closed (moved : Int) (later : Timespec) : PortStruct :=
  (data.deduct moved flag).setStartTime flag later

variable {data flag now} {other : Bool}

@[simp] theorem limit_opened : (data.opened flag now).limit other = data.limit other := by
  unfold opened
  split
  · simp
  · split <;> simp

@[simp] theorem startTime_opened :
    (data.opened flag now).startTime other = data.startTime other := by
  unfold opened
  split
  · simp
  · split <;> simp

/-- A `pre_op` in one direction leaves the remaining count of the other direction. -/
theorem remaining_opened_of_ne (different : other ≠ flag) :
    (data.opened flag now).remaining other = data.remaining other := by
  unfold opened
  split
  · simp [different]
  · split <;> simp [different]

/-- The offer is the remaining count that `pre_op` leaves in a limited direction. -/
theorem offer_eq_remaining (limited : 0 ≤ data.limit flag) (now : Timespec) :
    data.offer flag now = (data.opened flag now).remaining flag := by
  have proper : data.limit flag ≠ -1 := by omega
  simp only [offer, opened, if_neg proper]
  split <;> simp

@[simp] theorem limit_closed (moved : Int) (later : Timespec) :
    (data.closed flag moved later).limit other = data.limit other := by simp [closed]

@[simp] theorem startTime_closed (moved : Int) (later : Timespec) :
    (data.closed flag moved later).startTime other =
      if other = flag then later else data.startTime other := by simp [closed]

theorem remaining_closed (moved : Int) (later : Timespec) :
    (data.closed flag moved later).remaining other = max 0
      (if other = flag then data.remaining other - moved else data.remaining other) := by
  simp [closed]

theorem Metered.opened (metered : data.Metered) : (data.opened flag now).Metered := by
  unfold PortStruct.opened
  split
  · exact metered.zero flag
  · split
    · exact metered.refill flag
    · exact metered

theorem Metered.closed (metered : data.Metered) {moved : Int} (positive : 0 < moved)
    (later : Timespec) : (data.closed flag moved later).Metered :=
  (metered.deduct flag positive).setStartTime flag later

end PortStruct

/-- The events of the locked sections, with the clock readings and results they depend on. -/
inductive Section where
  | bind (fd : Int) (addr : Sockaddr)
  | connect (fd : Int) (addr : Sockaddr)
  | accept (fd acpFd : Int)
  | close (fd : Int)
  | dup (oldFd newFd : Int)
  | dup2 (oldFd newFd returnVal : Int)
  | enter (flag : Bool) (fd : Int) (count : Nat) (now : Timespec) (grant : Grant)
  | leave (flag : Bool) (fd moved : Int) (now : Timespec)

/-- Each locked section is one step on the controller. -/
inductive SectionStep : ControllerStruct → Section → ControllerStruct → Prop where
  | bind {contStr : ControllerStruct} (fd : Int) (addr : Sockaddr) :
      SectionStep contStr (.bind fd addr) (bind contStr fd addr)
  | connect {contStr : ControllerStruct} (fd : Int) (addr : Sockaddr) :
      SectionStep contStr (.connect fd addr) (connect contStr fd addr)
  | accept {contStr : ControllerStruct} (fd acpFd : Int) :
      SectionStep contStr (.accept fd acpFd) (accept contStr fd acpFd)
  | close {contStr next : ControllerStruct} {fd : Int} (done : close contStr fd = .ok next) :
      SectionStep contStr (.close fd) next
  | dup {contStr : ControllerStruct} (oldFd newFd : Int) :
      SectionStep contStr (.dup oldFd newFd) (dup contStr oldFd newFd)
  | dup2 {contStr : ControllerStruct} (oldFd newFd returnVal : Int) :
      SectionStep contStr (.dup2 oldFd newFd returnVal) (dup2 contStr oldFd newFd returnVal)
  | enter {contStr next : ControllerStruct} {flag : Bool} {fd : Int} {count : Nat}
      {now : Timespec} {grant : Grant} (done : enter contStr flag fd count now = .ok (next, grant)) :
      SectionStep contStr (.enter flag fd count now grant) next
  | leave {contStr next : ControllerStruct} {flag : Bool} {fd moved : Int} {now : Timespec}
      (done : leave contStr flag fd moved now = .ok next) :
      SectionStep contStr (.leave flag fd moved now) next

/-- The sections of a data call. -/
def Section.transfers : Section → Bool
  | .enter _ _ _ _ _ => true
  | .leave _ _ _ _ => true
  | _ => false

def Section.duplicates : Section → Bool
  | .dup _ _ => true
  | .dup2 _ _ _ => true
  | _ => false

/-- The controllers that any order of locked sections reaches from a registration. -/
def Reachable (contStr : ControllerStruct) : Prop :=
  ∃ env events, Registered env ∧ Run SectionStep (initEnv env) events contStr

/-- The controllers that are reached without a duplicated descriptor. -/
def ReachableWithoutDup (contStr : ControllerStruct) : Prop :=
  ∃ env events, Registered env ∧ (∀ event ∈ events, event.duplicates = false) ∧
    Run SectionStep (initEnv env) events contStr

section Specification

variable {contStr : ControllerStruct} {fd : Int} {port : UInt32} {data : PortStruct} {flag : Bool}
  {now : Timespec}

/-- A connection with a port is registered. -/
theorem present_of_port {soS : SockStruct} (dest : getDestPort soS fd = .ok (some port)) :
    isAcpSockFdPresent soS fd = true := by
  rw [isAcpSockFdPresent_eq]
  cases conn : soS.acpSocketRb.get fd with
  | none => simp [getDestPort_absent conn] at dest
  | some acp => rfl

theorem initLimit_eq {env : RegisterEnvStruct} (found : env.get port = some data) (flag : Bool) :
    (if !flag then getInitUpLimit env port else getInitDownLimit env port) = data.limit flag := by
  cases flag <;> simp [getInitUpLimit, getInitDownLimit, found, PortStruct.limit]

/-- The budget that the code reads for a registered port. -/
theorem portWindow_spec {env : RegisterEnvStruct} (found : env.get port = some data) (flag : Bool)
    (now : Timespec) :
    (portWindow env port flag now).2 = ⟨data.offer flag now, data.sleep flag now⟩ ∧
      ∀ q, (portWindow env port flag now).1.get q =
        if q = port then some (data.opened flag now) else env.get q := by
  have limit := initLimit_eq found flag
  have prevTime : getTimeVal env port flag = data.startTime flag := by simp [getTimeVal, found]
  have left : getRemainingByteCountForCurrentWindow env port flag = data.remaining flag := by
    simp [getRemainingByteCountForCurrentWindow, found]
  have set (size : Int) (q : UInt32) : (setByteCountWindow env port size flag).1.get q =
      if q = port then some (data.setRemaining flag size) else env.get q := by
    rw [setByteCountWindow_fst, RegisterEnvStruct.get_update, found]
    rfl
  simp only [portWindow, limit, prevTime, left]
  by_cases unlimited : data.limit flag = -1
  · simp [unlimited, PortStruct.offer, PortStruct.sleep, PortStruct.refills, PortStruct.opened, set]
  · by_cases idle : timeDifference (data.startTime flag) now > nanoMult
    · simp [unlimited, idle, PortStruct.offer, PortStruct.sleep, PortStruct.refills,
        PortStruct.idle, PortStruct.opened, set]
    · by_cases empty : data.remaining flag ≤ 0
      · simp [unlimited, idle, empty, PortStruct.offer, PortStruct.sleep, PortStruct.refills,
          PortStruct.idle, PortStruct.opened, set]
      · have same (q : UInt32) : env.get q = if q = port then some data else env.get q := by
          split
          · rename_i equal
            rw [equal, found]
          · rfl
        simpa [unlimited, idle, empty, PortStruct.offer, PortStruct.sleep, PortStruct.refills,
          PortStruct.idle, PortStruct.opened] using same

/-- A port without an entry has no limit and no state. -/
theorem portWindow_missing {env : RegisterEnvStruct} (missing : env.get port = none) (flag : Bool)
    (now : Timespec) : portWindow env port flag now = (env, ⟨-1, none⟩) := by
  have limit : (if !flag then getInitUpLimit env port else getInitDownLimit env port) = -1 := by
    simp [getInitUpLimit, getInitDownLimit, missing]
  simp only [portWindow, limit, ne_eq, not_true_eq_false, if_false, setByteCountWindow_fst,
    RegisterEnvStruct.update_absent missing]

/-- The effect of `pre_op` on the entry of the port. -/
theorem preOp_spec (dest : getDestPort contStr.socStr fd = .ok (some port))
    (found : contStr.regEnvStr.get port = some data) (demand : Int) (flag : Bool)
    (now : Timespec) :
    ∃ next, preOp contStr fd demand flag now =
        .ok (next, ⟨true, min demand (data.offer flag now), data.sleep flag now⟩) ∧
      next.socStr = contStr.socStr ∧
      ∀ q, next.regEnvStr.get q =
        if q = port then some (data.opened flag now) else contStr.regEnvStr.get q := by
  obtain ⟨window, ports⟩ := portWindow_spec found flag now
  refine ⟨{ contStr with regEnvStr := (portWindow contStr.regEnvStr port flag now).1 }, ?_, rfl,
    ports⟩
  have smaller : (if demand ≥ data.offer flag now then data.offer flag now else demand) =
      min demand (data.offer flag now) := by grind
  simp only [preOp, present_of_port dest, if_true, getPortRemainfByte, dest, window, smaller]

/-- The effect of `do_update` and `update_time` on the entry of the port. -/
theorem leave_spec (dest : getDestPort contStr.socStr fd = .ok (some port))
    (found : contStr.regEnvStr.get port = some data) (flag : Bool) {moved : Int}
    (positive : 0 < moved) (now : Timespec) :
    ∃ next, leave contStr flag fd moved now = .ok next ∧ next.socStr = contStr.socStr ∧
      ∀ q, next.regEnvStr.get q =
        if q = port then some (data.closed flag moved now) else contStr.regEnvStr.get q := by
  have deducted (q : UInt32) :
      (updateByteCountCurrentWindow contStr.regEnvStr port moved flag).1.get q =
        if q = port then some (data.deduct moved flag) else contStr.regEnvStr.get q := by
    rw [updateByteCountCurrentWindow_fst, RegisterEnvStruct.get_update, found]
    rfl
  refine ⟨{ contStr with regEnvStr := (updateTimeVal
    (updateByteCountCurrentWindow contStr.regEnvStr port moved flag).1 port flag now).1 }, ?_, rfl, ?_⟩
  · simp only [leave, doUpdate, updateTime, gt_iff_lt, positive, if_true, dest, Except.map]
  · intro q
    rw [updateTimeVal_fst, RegisterEnvStruct.get_update, deducted, deducted]
    split <;> simp [PortStruct.closed]

/-- A transfer on a port without an entry charges nothing. -/
theorem leave_missing (dest : getDestPort contStr.socStr fd = .ok (some port))
    (missing : contStr.regEnvStr.get port = none) (flag : Bool) (moved : Int) (now : Timespec) :
    leave contStr flag fd moved now = .ok contStr := by
  unfold leave
  split
  · rename_i positive
    have charged := updateByteCountCurrentWindow_fst contStr.regEnvStr port flag moved
    have timed := updateTimeVal_fst contStr.regEnvStr port flag now
    rw [RegisterEnvStruct.update_absent missing] at charged timed
    simp only [doUpdate, positive, if_true, dest, charged, updateTime, timed, Except.map]
  · rfl

/-- A transfer on an unregistered descriptor charges nothing. -/
theorem leave_lost (lost : getDestPort contStr.socStr fd = .ok none) (flag : Bool) (moved : Int)
    (now : Timespec) : leave contStr flag fd moved now = .ok contStr := by
  simp only [leave, doUpdate, updateTime]
  split <;> simp [lost, Except.map]

theorem leave_idle {moved : Int} (none' : moved ≤ 0) (flag : Bool) (now : Timespec) :
    leave contStr flag fd moved now = .ok contStr := by
  simp [leave, Int.not_lt.mpr none']

end Specification

section Frame

variable {contStr next : ControllerStruct} {fd : Int} {flag : Bool} {now : Timespec} {moved : Int}

/-- The socket trees and the limits do not change, and the budgets stay metered. -/
structure BudgetStep (contStr next : ControllerStruct) : Prop where
  sockets : next.socStr = contStr.socStr
  ports : ∀ q, isPortRegistered next.regEnvStr q = isPortRegistered contStr.regEnvStr q
  metered : contStr.regEnvStr.All PortStruct.Metered → next.regEnvStr.All PortStruct.Metered

theorem BudgetStep.refl (contStr : ControllerStruct) : BudgetStep contStr contStr :=
  ⟨rfl, fun _ => rfl, id⟩

theorem BudgetStep.trans {last : ControllerStruct} (first : BudgetStep contStr next)
    (second : BudgetStep next last) : BudgetStep contStr last :=
  ⟨second.sockets.trans first.sockets, fun q => (second.ports q).trans (first.ports q),
    second.metered ∘ first.metered⟩

/-- A table update that keeps its entry metered. -/
theorem BudgetStep.update (contStr : ControllerStruct) (port : UInt32)
    {change : PortStruct → PortStruct}
    (kept : ∀ data, contStr.regEnvStr.get port = some data → data.Metered → (change data).Metered) :
    BudgetStep contStr { contStr with regEnvStr := contStr.regEnvStr.update port change } :=
  ⟨rfl, contStr.regEnvStr.isPortRegistered_update port change, fun all => all.update kept⟩

theorem portWindow_budget (contStr : ControllerStruct) (port : UInt32) (flag : Bool)
    (now : Timespec) :
    BudgetStep contStr
      { contStr with regEnvStr := (portWindow contStr.regEnvStr port flag now).1 } := by
  obtain ⟨limit, set⟩ : ∃ limit, (if !flag then getInitUpLimit contStr.regEnvStr port
    else getInitDownLimit contStr.regEnvStr port) = limit := ⟨_, rfl⟩
  have refill (data : PortStruct) (found : contStr.regEnvStr.get port = some data)
      (metered : data.Metered) : (data.setRemaining flag limit).Metered := by
    rw [← set, initLimit_eq found]
    exact metered.refill _
  simp only [portWindow, set]
  split
  · split
    · rw [setByteCountWindow_fst]
      exact .update contStr port refill
    · split
      · rw [setByteCountWindow_fst]
        exact .update contStr port refill
      · exact .refl contStr
  · rw [setByteCountWindow_fst]
    exact .update contStr port fun _ _ metered => metered.zero _

theorem preOp_budget {demand : Int} {grant : Grant}
    (done : preOp contStr fd demand flag now = .ok (next, grant)) : BudgetStep contStr next := by
  unfold preOp at done
  split at done
  · cases window : getPortRemainfByte contStr fd flag now with
    | error stop => simp [window] at done
    | ok result =>
        simp only [window, Except.ok.injEq, Prod.mk.injEq] at done
        obtain ⟨rfl, -⟩ := done
        unfold getPortRemainfByte at window
        split at window
        · cases window
        · cases window
        · obtain rfl := Except.ok.inj window
          exact portWindow_budget contStr _ flag now
  · simp only [Except.ok.injEq, Prod.mk.injEq] at done
    exact done.1 ▸ .refl contStr

theorem doUpdate_budget (done : doUpdate contStr moved fd flag = .ok next) :
    BudgetStep contStr next := by
  unfold doUpdate at done
  split at done
  · rename_i positive
    split at done
    · cases done
    · exact Except.ok.inj done ▸ .refl contStr
    · rename_i port dest
      obtain rfl := Except.ok.inj done
      have fst := updateByteCountCurrentWindow_fst contStr.regEnvStr port flag moved
      exact fst ▸ .update contStr port fun _ _ metered => metered.deduct _ positive
  · exact Except.ok.inj done ▸ .refl contStr

theorem updateTime_budget {result : ControllerStruct × Bool}
    (done : updateTime contStr fd flag now = .ok result) : BudgetStep contStr result.1 := by
  unfold updateTime at done
  split at done
  · cases done
  · exact Except.ok.inj done ▸ .refl contStr
  · rename_i port dest
    obtain rfl := Except.ok.inj done
    have fst := updateTimeVal_fst contStr.regEnvStr port flag now
    exact fst ▸ .update contStr port fun _ _ metered => metered.setStartTime _ _

theorem leave_budget (done : leave contStr flag fd moved now = .ok next) :
    BudgetStep contStr next := by
  unfold leave at done
  split at done
  · cases first : doUpdate contStr moved fd flag with
    | error stop => simp [first] at done
    | ok middle =>
        cases second : updateTime middle fd flag now with
        | error stop => simp [first, second, Except.map] at done
        | ok result =>
            simp only [first, second, Except.map, Except.ok.injEq] at done
            subst done
            exact (doUpdate_budget first).trans (updateTime_budget second)
  · exact Except.ok.inj done ▸ .refl contStr

end Frame

section Tables

variable {contStr next : ControllerStruct} {event : Section} {fd : Int} {addr : Sockaddr}

/-- Registration of a socket reads the port table and does not write it. -/
theorem bind_env : (bind contStr fd addr).regEnvStr = contStr.regEnvStr := by
  simp only [bind, regisNewCreatedSocket]
  split <;> rfl

theorem connect_env : (connect contStr fd addr).regEnvStr = contStr.regEnvStr := by
  simp only [connect, regisNewCreatedSocket]
  split <;> split <;> rfl

theorem accept_env {acpFd : Int} : (accept contStr fd acpFd).regEnvStr = contStr.regEnvStr := by
  unfold accept
  split <;> rfl

/-- A `close` that completes has unregistered its descriptor. -/
theorem close_done (done : close contStr fd = .ok next) : ∃ soS result,
    unregisterSocketDescriptor contStr.socStr fd = .ok (soS, result) ∧
      next = { contStr with socStr := soS } := by
  unfold close at done
  cases result : unregisterSocketDescriptor contStr.socStr fd with
  | error stop => simp [result, Except.map] at done
  | ok pair =>
      simp only [result, Except.map, Except.ok.injEq] at done
      exact ⟨pair.1, pair.2, rfl, done.symm⟩

theorem close_env (done : close contStr fd = .ok next) : next.regEnvStr = contStr.regEnvStr := by
  obtain ⟨soS, result, -, rfl⟩ := close_done done
  rfl

/-- The close of a descriptor without an entry changes nothing. -/
theorem close_absent (absent : contStr.socStr.acpSocketRb.get fd = none) :
    close contStr fd = .ok contStr := by
  rw [close, unregister_absent absent]
  rfl

/-- The sections of the socket calls leave the port table. -/
theorem SectionStep.env_eq (taken : SectionStep contStr event next)
    (socket : event.transfers = false) : next.regEnvStr = contStr.regEnvStr := by
  cases taken with
  | bind fd addr => exact bind_env
  | connect fd addr => exact connect_env
  | accept fd acpFd => exact accept_env
  | close done => exact close_env done
  | dup oldFd newFd =>
      unfold BandwidthLimiter.dup
      split <;> rfl
  | dup2 oldFd newFd returnVal =>
      unfold BandwidthLimiter.dup2
      split <;> rfl
  | enter done => cases socket
  | leave done => cases socket

/-- A locked section leaves the port table alone or moves budgets. -/
theorem SectionStep.table (taken : SectionStep contStr event next) :
    next.regEnvStr = contStr.regEnvStr ∨ BudgetStep contStr next := by
  cases socket : event.transfers with
  | false => exact .inl (taken.env_eq socket)
  | true =>
      cases taken with
      | enter done => exact .inr (preOp_budget done)
      | leave done => exact .inr (leave_budget done)
      | _ => cases socket

/-- Every budget stays metered through every locked section. -/
theorem SectionStep.metered (metered : contStr.regEnvStr.All PortStruct.Metered)
    (taken : SectionStep contStr event next) : next.regEnvStr.All PortStruct.Metered := by
  rcases taken.table with same | budget
  · rwa [same]
  · exact budget.metered metered

/-- No locked section registers or removes a port. -/
theorem SectionStep.ports (taken : SectionStep contStr event next) (q : UInt32) :
    isPortRegistered next.regEnvStr q = isPortRegistered contStr.regEnvStr q := by
  rcases taken.table with same | budget
  · rw [same]
  · exact budget.ports q

theorem Reachable.metered (reachable : Reachable contStr) :
    contStr.regEnvStr.All PortStruct.Metered := by
  obtain ⟨env, events, registered, run⟩ := reachable
  exact run.invariant (fun contStr => contStr.regEnvStr.All PortStruct.Metered) registered.metered
    fun _ _ _ metered taken => taken.metered metered

end Tables

end BandwidthLimiter
