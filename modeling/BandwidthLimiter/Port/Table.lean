import BandwidthLimiter.Port.RegisterEnv

namespace BandwidthLimiter
open Foundation

namespace PortStruct

variable (data : PortStruct) (flag other : Bool)

@[simp] theorem remaining_setRemaining (size : Int) :
    (data.setRemaining flag size).remaining other =
      if other = flag then size else data.remaining other := by
  cases flag <;> cases other <;> rfl

@[simp] theorem limit_setRemaining (size : Int) :
    (data.setRemaining flag size).limit other = data.limit other := by
  cases flag <;> cases other <;> rfl

@[simp] theorem startTime_setRemaining (size : Int) :
    (data.setRemaining flag size).startTime other = data.startTime other := by
  cases flag <;> cases other <;> rfl

@[simp] theorem remaining_setStartTime (ts : Timespec) :
    (data.setStartTime flag ts).remaining other = data.remaining other := by
  cases flag <;> cases other <;> rfl

@[simp] theorem limit_setStartTime (ts : Timespec) :
    (data.setStartTime flag ts).limit other = data.limit other := by
  cases flag <;> cases other <;> rfl

@[simp] theorem startTime_setStartTime (ts : Timespec) :
    (data.setStartTime flag ts).startTime other =
      if other = flag then ts else data.startTime other := by
  cases flag <;> cases other <;> rfl

/-- A deduction takes the used bytes from one direction and clips both at zero. -/
@[simp] theorem remaining_deduct (usedBytes : Int) :
    (data.deduct usedBytes flag).remaining other =
      max 0 (if other = flag then data.remaining other - usedBytes else data.remaining other) := by
  simp only [deduct, setRemaining, remaining]
  cases flag <;> cases other <;> simp <;> grind

@[simp] theorem limit_deduct (usedBytes : Int) :
    (data.deduct usedBytes flag).limit other = data.limit other := by
  simp only [deduct, setRemaining, remaining, limit]
  cases flag <;> cases other <;> simp <;> grind

@[simp] theorem startTime_deduct (usedBytes : Int) :
    (data.deduct usedBytes flag).startTime other = data.startTime other := by
  simp only [deduct, setRemaining, remaining, startTime]
  cases flag <;> cases other <;> simp <;> grind

/-- The remaining count stays between zero and a proper limit, and a negative limit keeps none. -/
def Metered (data : PortStruct) : Prop :=
  ∀ flag, (data.limit flag < 0 → data.remaining flag ≤ 0) ∧
    (0 ≤ data.limit flag → 0 ≤ data.remaining flag ∧ data.remaining flag ≤ data.limit flag)

variable {data}

theorem metered_ofLimits (port : UInt32) (up down : Int) (latency : UInt32) :
    (ofLimits port up down latency).Metered := by
  intro flag
  cases flag <;> simp only [ofLimits, limit, remaining] <;> grind

/-- A new entry has its whole budget and no transfer. -/
theorem remaining_ofLimits (port : UInt32) (up down : Int) (latency : UInt32) :
    (ofLimits port up down latency).remaining flag = (ofLimits port up down latency).limit flag := by
  cases flag <;> rfl

theorem startTime_ofLimits (port : UInt32) (up down : Int) (latency : UInt32) :
    (ofLimits port up down latency).startTime flag = .zero := by
  cases flag <;> rfl

/-- A refill to the limit stays metered. -/
theorem Metered.refill (metered : data.Metered) :
    (data.setRemaining flag (data.limit flag)).Metered := by
  intro other
  have before := metered other
  simp only [remaining_setRemaining, limit_setRemaining]
  split <;> grind

theorem Metered.zero (metered : data.Metered) : (data.setRemaining flag 0).Metered := by
  intro other
  have before := metered other
  simp only [remaining_setRemaining, limit_setRemaining]
  split <;> grind

theorem Metered.deduct (metered : data.Metered) {usedBytes : Int} (used : 0 < usedBytes) :
    (data.deduct usedBytes flag).Metered := by
  intro other
  have before := metered other
  simp only [remaining_deduct, limit_deduct]
  split <;> grind

theorem Metered.setStartTime (metered : data.Metered) (ts : Timespec) :
    (data.setStartTime flag ts).Metered := by
  intro other
  simpa using metered other

end PortStruct

namespace RegisterEnvStruct

variable {env : RegisterEnvStruct} {port : UInt32} {data : PortStruct}

theorem write_absent (absent : env.get port = none) (change : PortStruct → PortStruct) :
    env.write port change = none := by
  rcases env with ⟨tree⟩
  cases tree with
  | none => rfl
  | some tree =>
      have missing : tree.get port = none := absent
      simp [write, RbTree.get_eq_none.mp missing]

/-- A write changes the entry of its port alone. -/
theorem write_present (present : env.get port = some data) (change : PortStruct → PortStruct) :
    ∃ next, env.write port change = some next ∧
      ∀ q, next.get q = if q = port then some (change data) else env.get q := by
  rcases env with ⟨tree⟩
  cases tree with
  | none => cases present
  | some tree =>
      obtain ⟨node, found, -, rfl⟩ := RbTree.exists_of_get (show tree.get port = some data from present)
      exact ⟨{ portRb := some (tree.setInfo node (change (tree.info node))) },
        by simp only [write, Option.bind_some, found, Option.map_some],
        fun q => RbTree.get_setInfo found _ q⟩

/-- The table after a write, or the old table when there is no entry. -/
def update (env : RegisterEnvStruct) (port : UInt32) (change : PortStruct → PortStruct) :
    RegisterEnvStruct := (env.write port change).getD env

theorem update_absent (absent : env.get port = none) (change : PortStruct → PortStruct) :
    env.update port change = env := by
  rw [update, write_absent absent]
  rfl

theorem get_update (env : RegisterEnvStruct) (port : UInt32) (change : PortStruct → PortStruct)
    (q : UInt32) :
    (env.update port change).get q = if q = port then (env.get port).map change else env.get q := by
  cases present : env.get port with
  | none =>
      rw [update_absent present]
      split
      · rename_i same
        rw [same]
        exact present
      · rfl
  | some data =>
      obtain ⟨next, written, lookup⟩ := write_present present change
      rw [update, written]
      exact lookup q

/-- Every entry of the table satisfies a property. -/
def All (env : RegisterEnvStruct) (property : PortStruct → Prop) : Prop :=
  ∀ port data, env.get port = some data → property data

/-- A change that keeps a property keeps it in the whole table. -/
theorem All.update {property : PortStruct → Prop} (all : env.All property)
    {change : PortStruct → PortStruct}
    (kept : ∀ data, env.get port = some data → property data → property (change data)) :
    (env.update port change).All property := by
  intro q data found
  rw [get_update] at found
  split at found
  · obtain ⟨old, present, rfl⟩ := Option.map_eq_some_iff.mp found
    exact kept old present (all port old present)
  · exact all q data found

/-- An update keeps the set of registered ports. -/
theorem isPortRegistered_update (env : RegisterEnvStruct) (port : UInt32)
    (change : PortStruct → PortStruct) (q : UInt32) :
    isPortRegistered (env.update port change) q = isPortRegistered env q := by
  simp only [isPortRegistered, get_update]
  split
  · rename_i same
    simp [same]
  · rfl

end RegisterEnvStruct

section Operations

variable (env : RegisterEnvStruct) (port : UInt32) (flag : Bool)

theorem updateTimeVal_fst (ts : Timespec) :
    (updateTimeVal env port flag ts).1 = env.update port fun data => data.setStartTime flag ts := by
  unfold updateTimeVal RegisterEnvStruct.update
  split <;> rename_i result <;> simp [result]

theorem updateByteCountCurrentWindow_fst (usedBytes : Int) :
    (updateByteCountCurrentWindow env port usedBytes flag).1 =
      env.update port fun data => data.deduct usedBytes flag := by
  unfold updateByteCountCurrentWindow RegisterEnvStruct.update
  split <;> rename_i result <;> simp [result]

theorem setByteCountWindow_fst (size : Int) :
    (setByteCountWindow env port size flag).1 =
      env.update port fun data => data.setRemaining flag size := by
  unfold setByteCountWindow RegisterEnvStruct.update
  split <;> rename_i result <;> simp [result]

end Operations

/-- The tables that registration builds. -/
inductive Registered : RegisterEnvStruct → Prop where
  | environment (port upLimit downLimit latency : Int) :
      Registered (doRegister port upLimit downLimit latency)
  | config (entries : List PortStr) : Registered (doRegisterFromConfig entries)

/-- The configured table holds the entries of the file. -/
theorem config_entries {entries : List PortStr} {tree : RbTree uint32Comparison PortStruct}
    {pair : UInt32 × PortStruct} :
    pair ∈ (entries.foldl (fun tree entry => tree.insert entry.portNo
      (.ofLimits entry.portNo entry.upLimit entry.downLimit entry.latency)) tree).entries ↔
    pair ∈ tree.entries ∨ ∃ entry ∈ entries, pair = (entry.portNo,
      .ofLimits entry.portNo entry.upLimit entry.downLimit entry.latency) := by
  induction entries generalizing tree with
  | nil => simp
  | cons first rest ih =>
      rw [List.foldl_cons, ih, (RbTree.entries_insert ..).mem_iff, List.mem_cons]
      simp only [List.exists_mem_cons_iff]
      tauto

/-- A port that the file names once has its own entry. -/
theorem get_doRegisterFromConfig {entries : List PortStr} {entry : PortStr}
    (distinct : (entries.map PortStr.portNo).Nodup) (mem : entry ∈ entries) :
    (doRegisterFromConfig entries).get entry.portNo =
      some (.ofLimits entry.portNo entry.upLimit entry.downLimit entry.latency) := by
  cases found : (doRegisterFromConfig entries).get entry.portNo with
  | none =>
      refine absurd (List.mem_map_of_mem (config_entries.mpr (.inr ⟨entry, mem, rfl⟩)))
        (RbTree.get_eq_none_iff_absent.mp found)
  | some data =>
      have held := RbTree.mem_of_get (show RbTree.get _ entry.portNo = some data from found)
      rcases config_entries.mp held with old | ⟨other, inside, same⟩
      · simp at old
      · obtain ⟨port, rfl⟩ := Prod.mk.inj same
        rw [List.inj_on_of_nodup_map distinct inside mem port.symm]

/-- A port that the file does not name has no entry. -/
theorem get_doRegisterFromConfig_absent {entries : List PortStr} {port : UInt32}
    (absent : port ∉ entries.map PortStr.portNo) :
    (doRegisterFromConfig entries).get port = none := by
  cases found : (doRegisterFromConfig entries).get port with
  | none => rfl
  | some data =>
      have held := RbTree.mem_of_get (show RbTree.get _ port = some data from found)
      rcases config_entries.mp held with old | ⟨entry, inside, same⟩
      · simp at old
      · exact absurd (List.mem_map.mpr ⟨entry, inside, (congrArg Prod.fst same).symm⟩) absent

/-- Registration stores the entry of its arguments. -/
theorem Registered.ofLimits {env : RegisterEnvStruct} {port : UInt32} {data : PortStruct}
    (registered : Registered env) (found : env.get port = some data) :
    ∃ number up down latency, data = .ofLimits number up down latency := by
  cases registered with
  | environment first upLimit downLimit latency =>
      unfold doRegister at found
      split at found
      · cases found
      · have mem := RbTree.mem_of_get (show RbTree.get _ port = some data from found)
        rw [(RbTree.entries_insert ..).mem_iff] at mem
        obtain ⟨-, rfl⟩ : _ ∧ data = _ := by simpa using mem
        exact ⟨_, _, _, _, rfl⟩
  | config entries =>
      have mem := RbTree.mem_of_get (show RbTree.get _ port = some data from found)
      rcases config_entries.mp mem with old | ⟨entry, -, same⟩
      · simp at old
      · obtain rfl := congrArg Prod.snd same
        exact ⟨_, _, _, _, rfl⟩

/-- Registration fills every budget to its limit. -/
theorem Registered.metered {env : RegisterEnvStruct} (registered : Registered env) :
    env.All PortStruct.Metered := by
  intro port data found
  obtain ⟨number, up, down, latency, rfl⟩ := registered.ofLimits found
  exact PortStruct.metered_ofLimits number up down latency

end BandwidthLimiter
