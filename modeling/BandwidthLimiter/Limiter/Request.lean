import BandwidthLimiter.Limiter.Controller

namespace BandwidthLimiter
open Foundation

namespace PortStruct

variable {data : PortStruct} (flag : Bool) (now : Timespec)

/-- The offer is positive exactly for a positive limit. -/
theorem Metered.offer_pos_iff (metered : data.Metered) :
    1 ≤ data.offer flag now ↔ 1 ≤ data.limit flag := by
  obtain ⟨negative, bounds⟩ := metered flag
  unfold offer
  split
  · rename_i unlimited
    omega
  · rename_i limited
    cases refills : data.refills flag now with
    | true => simp
    | false =>
        simp only [PortStruct.refills, limited, decide_true, Bool.true_and, Bool.or_eq_false_iff,
          decide_eq_false_iff_not, ne_eq, not_false_eq_true, Int.not_le] at refills
        simp only [Bool.false_eq_true, if_false]
        omega

end PortStruct

/-- The grant keeps at least one byte and no more than the demand, and all of it without a limit;
the length for libc has the same bounds. -/
structure Grant.Serves (grant : Grant) (count : Nat) (limit : Int) : Prop where
  positive : 1 ≤ grant.demand
  bounded : grant.demand ≤ count
  unlimited : limit = -1 → grant.demand = count
  nonempty : 1 ≤ libcLength count grant
  fits : libcLength count grant ≤ count

/-- A length that fits keeps its value as a signed demand. -/
theorem ssizeT_of_lt {count : Nat} (fits : count < 2 ^ 63) : ssizeT count = count := by
  unfold ssizeT
  rw [Nat.mod_eq_of_lt (by omega), if_pos fits]

/-- A demand that fits keeps its value as a length. -/
theorem sizeT_of_nonneg {demand : Int} (nonneg : 0 ≤ demand) (fits : demand < 2 ^ 64) :
    sizeT demand = demand.toNat := by
  unfold sizeT
  rw [Int.emod_eq_of_lt nonneg fits]

/-- An active grant serves a request exactly when its offer and its limit are positive. -/
theorem Grant.serves_iff {count : Nat} {offer limit : Int} {sleepUntil : Option Timespec}
    (demand : 1 ≤ count) (fits : count < 2 ^ 63) (sign : 1 ≤ offer ↔ 1 ≤ limit) :
    Grant.Serves ⟨true, min count offer, sleepUntil⟩ count limit ↔ 1 ≤ limit := by
  constructor
  · intro serves
    have positive : 1 ≤ min (count : Int) offer := serves.positive
    exact sign.mp (le_trans positive (Int.min_le_right _ _))
  · intro limited
    have offered := sign.mpr limited
    have least : 1 ≤ min (count : Int) offer := le_min (by omega) offered
    have most : min (count : Int) offer ≤ count := Int.min_le_left _ _
    have length : libcLength count ⟨true, min count offer, sleepUntil⟩ =
        (min (count : Int) offer).toNat := by
      simp only [libcLength, if_true]
      exact sizeT_of_nonneg (by omega) (by omega)
    exact ⟨least, most, fun unlimited => by omega, by omega, by omega⟩

/-- A connection in the registry has a port with an entry in the table. -/
theorem Denotes.entry {contStr : ControllerStruct} {registry : Registry Int UInt32} {fd : Int}
    (denotes : Denotes contStr registry)
    (present : isAcpSockFdPresent contStr.socStr fd = true) :
    ∃ port data, getDestPort contStr.socStr fd = .ok (some port) ∧
      contStr.regEnvStr.get port = some data := by
  have named := denotes.present_iff.mp present
  obtain ⟨port, dest⟩ := Option.ne_none_iff_exists'.mp (named ∘ Registry.dest_eq_none.mp)
  obtain ⟨root, -, value⟩ := Registry.dest_eq_some.mp dest
  obtain ⟨data, found⟩ := Option.isSome_iff_exists.mp (denotes.served root port value)
  exact ⟨port, data, (denotes.destPort fd).trans (congrArg _ dest), found⟩

/-- The limiter serves the requests of a registered connection exactly when the limit of the
direction is positive. -/
theorem preOp_serves_iff {contStr : ControllerStruct} (reachable : ReachableWithoutDup contStr)
    {fd : Int} (present : isAcpSockFdPresent contStr.socStr fd = true) (flag : Bool) {count : Nat}
    (demand : 1 ≤ count) (fits : count < 2 ^ 63) (now : Timespec) :
    ∃ port data next grant, getDestPort contStr.socStr fd = .ok (some port) ∧
      contStr.regEnvStr.get port = some data ∧
      preOp contStr fd count flag now = .ok (next, grant) ∧
      enter contStr flag fd count now = .ok (next, grant) ∧ grant.active = true ∧
      (grant.Serves count (data.limit flag) ↔ 1 ≤ data.limit flag) := by
  obtain ⟨registry, denotes⟩ := reachable.denotes
  obtain ⟨port, data, dest, found⟩ := denotes.entry present
  obtain ⟨next, done, -⟩ := preOp_spec dest found count flag now
  have metered := reachable.reachable.metered port data found
  refine ⟨port, data, next, _, dest, found, done, ?_, rfl,
    Grant.serves_iff demand fits (metered.offer_pos_iff flag now)⟩
  rw [enter, ssizeT_of_lt fits, done]

section Client

/-- The client connection 4 to port 80 with one limit for both directions. -/
def clientConnection (limit : Int) : ControllerStruct :=
  connect (initEnv (doRegister 80 limit limit 0)) 4 ⟨afInet, 0, 80⟩

theorem clientConnection_reachable (limit : Int) : ReachableWithoutDup (clientConnection limit) :=
  ⟨_, [.connect 4 ⟨afInet, 0, 80⟩], .environment 80 limit limit 0, by simp [Section.duplicates],
    .cons (.connect 4 ⟨afInet, 0, 80⟩) .start⟩

set_option maxRecDepth 4000 in
/-- The closed number 4 is free for a connection of the next socket. -/
theorem clientConnection_close : ∃ next, close (clientConnection 5) 4 = .ok next ∧
    next.socStr.sockRb.get 4 = none ∧
    getDestPort (connect next 4 ⟨afInet, 0, 80⟩).socStr 4 = .ok (some 80) ∧
    (connect next 4 ⟨afInet, 0, 80⟩).regEnvStr.get 80 = some (.ofLimits 80 5 5 0) :=
  ⟨_, rfl, by decide, by decide, by decide⟩

set_option maxRecDepth 4000 in
theorem clientConnection_serves : ∃ next grant,
    preOp (clientConnection 5) 4 10 true ⟨1, 0⟩ = .ok (next, grant) ∧
      enter (clientConnection 5) true 4 10 ⟨1, 0⟩ = .ok (next, grant) ∧ grant.Serves 10 5000 := by
  have present : isAcpSockFdPresent (clientConnection 5).socStr 4 = true := by decide
  obtain ⟨port, data, next, grant, dest, found, done, entered, -, serves⟩ := preOp_serves_iff
    (clientConnection_reachable 5) present true (show 1 ≤ 10 by decide) (by decide) ⟨1, 0⟩
  have port80 : getDestPort (clientConnection 5).socStr 4 = .ok (some 80) := by decide
  have entry : (clientConnection 5).regEnvStr.get 80 = some (.ofLimits 80 5 5 0) := by decide
  obtain rfl := Option.some.inj (Except.ok.inj (port80.symm.trans dest))
  obtain rfl := Option.some.inj (entry.symm.trans found)
  exact ⟨next, grant, done, entered, serves.mpr (by decide)⟩

set_option maxRecDepth 4000 in
/-- The default limit turns a demand of ten bytes into a negative demand. -/
theorem clientConnection_unserved :
    ¬∀ (contStr next : ControllerStruct) (fd : Int) (flag : Bool) (count : Nat) (now : Timespec)
      (port : UInt32) (data : PortStruct) (grant : Grant), ReachableWithoutDup contStr →
      isAcpSockFdPresent contStr.socStr fd = true → 1 ≤ count → count < 2 ^ 63 →
      getDestPort contStr.socStr fd = .ok (some port) →
      contStr.regEnvStr.get port = some data →
      preOp contStr fd count flag now = .ok (next, grant) → grant.active = true →
      grant.Serves count (data.limit flag) := by
  intro assumed
  have dest : getDestPort (clientConnection (-1)).socStr 4 = .ok (some 80) := by decide
  have found : (clientConnection (-1)).regEnvStr.get 80 = some (.ofLimits 80 (-1) (-1) 0) := by decide
  obtain ⟨next, done, -⟩ := preOp_spec dest found 10 true ⟨1, 0⟩
  have serves := assumed _ next 4 true 10 ⟨1, 0⟩ 80 _ _ (clientConnection_reachable (-1))
    (by decide) (by decide) (by decide) dest found done rfl
  exact absurd serves.positive (by decide)

end Client

end BandwidthLimiter
