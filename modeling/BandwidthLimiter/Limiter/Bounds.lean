import BandwidthLimiter.Limiter.Section

namespace BandwidthLimiter
open Foundation

/-- Every port keeps its limits, and no port comes or goes. -/
def LimitsKept (env next : RegisterEnvStruct) : Prop :=
  ∀ port flag, (next.get port).map (PortStruct.limit · flag) =
    (env.get port).map (PortStruct.limit · flag)

section Kept

variable {env middle last : RegisterEnvStruct} {contStr next : ControllerStruct} {event : Section}
  {fd : Int} {port : UInt32} {data : PortStruct} {flag : Bool} {now : Timespec}

theorem LimitsKept.refl (env : RegisterEnvStruct) : LimitsKept env env := fun _ _ => rfl

theorem LimitsKept.trans (first : LimitsKept env middle) (second : LimitsKept middle last) :
    LimitsKept env last := fun port flag => (second port flag).trans (first port flag)

/-- A change of one entry that keeps its limits. -/
theorem LimitsKept.change {changed : PortStruct} (found : env.get port = some data)
    (after : ∀ q, middle.get q = if q = port then some changed else env.get q)
    (kept : ∀ flag, changed.limit flag = data.limit flag) : LimitsKept env middle := by
  intro q flag
  rw [after]
  split
  · rename_i same
    simp [same, found, kept]
  · rfl

/-- The limits behind a completed `pre_op`. -/
theorem preOp_limits {demand : Int} {grant : Grant}
    (done : preOp contStr fd demand flag now = .ok (next, grant)) :
    LimitsKept contStr.regEnvStr next.regEnvStr := by
  cases present : isAcpSockFdPresent contStr.socStr fd with
  | false =>
      simp only [preOp, present, Bool.false_eq_true, if_false, Except.ok.injEq, Prod.mk.injEq] at done
      exact done.1 ▸ .refl _
  | true =>
      cases dest : getDestPort contStr.socStr fd with
      | error stop => simp [preOp, present, getPortRemainfByte, dest] at done
      | ok found =>
          cases found with
          | none => simp [preOp, present, getPortRemainfByte, dest] at done
          | some port =>
              cases found : contStr.regEnvStr.get port with
              | none =>
                  simp only [preOp, present, if_true, getPortRemainfByte, dest,
                    portWindow_missing found, Except.ok.injEq, Prod.mk.injEq] at done
                  exact done.1 ▸ .refl _
              | some data =>
                  obtain ⟨other, run, -, after⟩ := preOp_spec dest found demand flag now
                  obtain ⟨rfl, -⟩ := Prod.mk.inj (Except.ok.inj (done.symm.trans run))
                  exact .change found after fun _ => PortStruct.limit_opened

/-- The limits behind a completed charge. -/
theorem leave_limits {moved : Int} (done : leave contStr flag fd moved now = .ok next) :
    LimitsKept contStr.regEnvStr next.regEnvStr := by
  by_cases positive : 0 < moved
  · cases dest : getDestPort contStr.socStr fd with
    | error stop => simp [leave, positive, doUpdate, dest] at done
    | ok found =>
        cases found with
        | none =>
            obtain rfl := Except.ok.inj ((leave_lost dest flag moved now).symm.trans done)
            exact .refl _
        | some port =>
            cases found : contStr.regEnvStr.get port with
            | none =>
                obtain rfl := Except.ok.inj ((leave_missing dest found flag moved now).symm.trans done)
                exact .refl _
            | some data =>
                obtain ⟨other, run, -, after⟩ := leave_spec dest found flag positive now
                obtain rfl := Except.ok.inj (done.symm.trans run)
                exact .change found after fun _ => PortStruct.limit_closed moved now
  · obtain rfl := Except.ok.inj ((leave_idle (Int.not_lt.mp positive) flag now).symm.trans done)
    exact .refl _

theorem SectionStep.limits (taken : SectionStep contStr event next) :
    LimitsKept contStr.regEnvStr next.regEnvStr := by
  cases socket : event.transfers with
  | false => exact taken.env_eq socket ▸ .refl _
  | true =>
      cases taken with
      | enter done => exact preOp_limits done
      | leave done => exact leave_limits done
      | _ => cases socket

/-- Every port keeps its limits through every run of locked sections. -/
theorem sectionRun_limits {events : List Section} (run : Run SectionStep contStr events next) :
    LimitsKept contStr.regEnvStr next.regEnvStr :=
  run.invariant (fun next => LimitsKept contStr.regEnvStr next.regEnvStr) (.refl _)
    fun _ _ _ kept taken => kept.trans taken.limits

end Kept

end BandwidthLimiter
