import BandwidthLimiter.Limiter.Section
import BandwidthLimiter.Socket.StoreRun

namespace BandwidthLimiter
open Foundation

/-- The writes of a section: an operation of the store, or a write to an entry of a port. -/
inductive Effect where
  | store (op : SockOp)
  | table (port : UInt32) (change : PortStruct → PortStruct)

namespace Effect

def apply (contStr : ControllerStruct) : Effect → Except Stop ControllerStruct
  | .store op => (op.apply contStr.socStr).map fun socStr => { contStr with socStr }
  | .table port change =>
      .ok { contStr with regEnvStr := contStr.regEnvStr.update port change }

end Effect

def EffectStep (contStr : ControllerStruct) (effect : Effect) (next : ControllerStruct) : Prop :=
  effect.apply contStr = .ok next

namespace Section

/-- The write of `get_port_remainf_byte`. -/
def windowEffects (env : RegisterEnvStruct) (port : UInt32) (flag : Bool) (currentTime : Timespec) :
    List Effect :=
  let limit := if !flag then getInitUpLimit env port else getInitDownLimit env port
  let window (size : Int) : Effect := .table port fun data => data.setRemaining flag size
  if limit ≠ -1 then
    if timeDifference (getTimeVal env port flag) currentTime > nanoMult then [window limit]
    else if getRemainingByteCountForCurrentWindow env port flag ≤ 0 then [window limit]
    else []
  else [window 0]

/-- The writes of a section in their order. -/
def effects (contStr : ControllerStruct) : Section → List Effect
  | .bind fd addr =>
      if isPortRegistered contStr.regEnvStr addr.port then [.store (.initSock fd addr.port)] else []
  | .connect fd addr =>
      if isPortRegistered contStr.regEnvStr addr.port then
        if (initSock contStr.socStr fd addr.port).2 then
          [.store (.initSock fd addr.port), .store (.registerSock fd fd)]
        else [.store (.initSock fd addr.port)]
      else []
  | .accept fd acpFd => if acpFd ≠ -1 then [.store (.registerSock fd acpFd)] else []
  | .close fd => [.store (.unregister fd)]
  | .dup oldFd newFd => if newFd ≠ -1 then [.store (.copyFd oldFd newFd)] else []
  | .dup2 oldFd newFd returnVal => if returnVal ≠ -1 then [.store (.copyFd oldFd newFd)] else []
  | .enter flag fd _ now _ =>
      if isAcpSockFdPresent contStr.socStr fd then
        match getDestPort contStr.socStr fd with
        | .ok (some port) => windowEffects contStr.regEnvStr port flag now
        | _ => []
      else []
  | .leave flag fd moved now =>
      if moved > 0 then
        match getDestPort contStr.socStr fd with
        | .ok (some port) =>
            [.table port fun data => data.deduct moved flag,
              .table port fun data => data.setStartTime flag now]
        | _ => []
      else []

end Section

section Effects

variable {contStr next : ControllerStruct} {event : Section}

theorem Effect.one {effect : Effect} (done : effect.apply contStr = .ok next) :
    Run EffectStep contStr [effect] next :=
  .cons done .start

theorem windowEffects_run (contStr : ControllerStruct) (port : UInt32) (flag : Bool)
    (now : Timespec) :
    Run EffectStep contStr (Section.windowEffects contStr.regEnvStr port flag now)
      { contStr with regEnvStr := (portWindow contStr.regEnvStr port flag now).1 } := by
  have window (size : Int) : Run EffectStep contStr
      [.table port fun data => data.setRemaining flag size]
      { contStr with regEnvStr := (setByteCountWindow contStr.regEnvStr port size flag).1 } := by
    rw [setByteCountWindow_fst]
    exact Effect.one rfl
  unfold Section.windowEffects portWindow
  generalize (if !flag then getInitUpLimit contStr.regEnvStr port
    else getInitDownLimit contStr.regEnvStr port) = limit
  dsimp only
  split
  · split
    · exact window _
    · split
      · exact window _
      · exact .start
  · exact window 0

/-- Each section is the run of its writes. -/
theorem SectionStep.effects (taken : SectionStep contStr event next) :
    Run EffectStep contStr (event.effects contStr) next := by
  cases taken with
  | bind fd addr =>
      simp only [Section.effects, BandwidthLimiter.bind, regisNewCreatedSocket]
      split
      · exact Effect.one rfl
      · exact .start
  | connect fd addr =>
      simp only [Section.effects, BandwidthLimiter.connect, regisNewCreatedSocket]
      split
      · split
        · exact .cons rfl (Effect.one rfl)
        · exact Effect.one rfl
      · exact .start
  | accept fd acpFd =>
      simp only [Section.effects, BandwidthLimiter.accept]
      split
      · exact Effect.one rfl
      · exact .start
  | close done =>
      apply Effect.one
      simp only [BandwidthLimiter.close] at done
      simp only [Effect.apply, SockOp.apply]
      rw [← done]
      cases unregisterSocketDescriptor contStr.socStr _ <;> rfl
  | dup oldFd newFd =>
      simp only [Section.effects, BandwidthLimiter.dup, funcDupManager]
      split
      · exact Effect.one rfl
      · exact .start
  | dup2 oldFd newFd returnVal =>
      simp only [Section.effects, BandwidthLimiter.dup2, funcDupManager]
      split
      · exact Effect.one rfl
      · exact .start
  | @enter _ flag fd count now grant done =>
      simp only [BandwidthLimiter.enter, preOp, getPortRemainfByte] at done
      simp only [Section.effects]
      split at done
      · rename_i present
        rw [if_pos present]
        split at done
        · cases done
        · rename_i found
          split at found
          · cases found
          · cases found
          · rename_i port dest
            rw [dest]
            obtain ⟨rfl, -⟩ := Prod.mk.inj (Except.ok.inj found)
            obtain ⟨rfl, -⟩ := Prod.mk.inj (Except.ok.inj done)
            exact windowEffects_run contStr port flag now
      · rename_i absent
        rw [if_neg absent]
        obtain ⟨rfl, -⟩ := Prod.mk.inj (Except.ok.inj done)
        exact .start
  | @leave _ flag fd moved now done =>
      simp only [BandwidthLimiter.leave, doUpdate, updateTime] at done
      simp only [Section.effects]
      split at done
      · rename_i positive
        rw [if_pos positive]
        cases dest : getDestPort contStr.socStr fd with
        | error stop => simp [dest] at done
        | ok found =>
            cases found with
            | none =>
                simp only [dest, Except.map, Except.ok.injEq] at done
                exact done ▸ .start
            | some port =>
                simp only [dest, Except.map, Except.ok.injEq] at done
                rw [← done, updateTimeVal_fst, updateByteCountCurrentWindow_fst]
                exact .cons rfl (Effect.one rfl)
      · rename_i idle
        rw [if_neg idle]
        exact Except.ok.inj done ▸ .start

end Effects

end BandwidthLimiter
