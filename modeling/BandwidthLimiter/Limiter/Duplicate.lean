import BandwidthLimiter.Limiter.Controller
import BandwidthLimiter.Socket.StoreRun

namespace BandwidthLimiter
open Foundation

/-- What the code finds under a descriptor. -/
structure Lookups where
  present : Bool
  destPort : Except Stop (Option UInt32)
  rootPort : Option UInt32

namespace SockStruct

def rootPort (soS : SockStruct) (fd : Int) : Option UInt32 :=
  (soS.sockRb.get fd).map SocketFdStruct.port

def lookups (soS : SockStruct) (fd : Int) : Lookups where
  present := isAcpSockFdPresent soS fd
  destPort := getDestPort soS fd
  rootPort := soS.rootPort fd

/-- One of the connections of the descriptor names the root. -/
def Names (soS : SockStruct) (fd root : Int) : Prop :=
  ∃ acp, (fd, acp) ∈ soS.acpSocketRb.entries ∧ acp.rootFdNumber = root

/-- All connections of the descriptor name roots with this port. -/
def Leads (soS : SockStruct) (fd : Int) (port : Option UInt32) : Prop :=
  ∀ root, soS.Names fd root → soS.rootPort root = port

/-- The lookups of the descriptor read this root. -/
def Reads (soS : SockStruct) (fd root : Int) : Prop := soS.Names fd root ∨ root = fd

/-- The root counts another connection. -/
def Counted (soS : SockStruct) (root : Int) : Prop :=
  ∃ socStr, soS.sockRb.get root = some socStr ∧ 2 ≤ socStr.refCount

end SockStruct

/-- The descriptors of a successful duplicate. -/
def Section.copied : Section → Option (Int × Int)
  | .dup oldFd newFd => if newFd ≠ -1 then some (oldFd, newFd) else none
  | .dup2 oldFd newFd returnVal => if returnVal ≠ -1 then some (oldFd, newFd) else none
  | _ => none

/-- The two descriptors of a duplicate have the same lookups, the other descriptors keep theirs, and
a `close` of one leaves the lookups of the other. -/
structure Agree (soS next : SockStruct) (oldFd newFd : Int) : Prop where
  same : next.lookups newFd = next.lookups oldFd
  others : ∀ fd, fd ≠ oldFd → fd ≠ newFd → next.lookups fd = soS.lookups fd
  closeOld : oldFd ≠ newFd → ∃ later result,
    unregisterSocketDescriptor next oldFd = .ok (later, result) ∧
      later.lookups newFd = next.lookups newFd
  closeNew : oldFd ≠ newFd → ∃ later result,
    unregisterSocketDescriptor next newFd = .ok (later, result) ∧
      later.lookups oldFd = next.lookups oldFd

/-- The two numbers have the same root port or none. A number without a connection is copied to one
without a connection. A connection is copied while the connections of every number lead to one port,
and to another number only if those of both numbers lead to the same port, and every root that both
numbers read after the copy counts another connection. -/
structure Shareable (soS : SockStruct) (oldFd newFd : Int) : Prop where
  ports : soS.rootPort newFd = soS.rootPort oldFd
  free : soS.acpSocketRb.get oldFd = none → soS.acpSocketRb.get newFd = none
  single : soS.acpSocketRb.get oldFd ≠ none → ∀ fd, ∃ port, soS.Leads fd port
  together : soS.acpSocketRb.get oldFd ≠ none → oldFd ≠ newFd →
    ∃ port, soS.Leads oldFd (some port) ∧ soS.Leads newFd (some port)
  copied : oldFd ≠ newFd → ∀ acp, soS.acpSocketRb.get oldFd = some acp →
    soS.Counted acp.rootFdNumber
  counted : oldFd ≠ newFd → ∀ root,
    soS.Names oldFd root ∧ soS.Reads newFd root ∨ soS.Names newFd root ∧ soS.Reads oldFd root →
      soS.Counted root

/-- No number has connections of two roots, and the copy brings none together. -/
structure Unmixed (soS : SockStruct) (oldFd newFd : Int) : Prop where
  single : ∀ fd first second, soS.Names fd first → soS.Names fd second → first = second
  met : ∀ first second, soS.Names oldFd first → soS.Names newFd second → first = second

section Names

variable {soS other : SockStruct} {fd otherFd : Int} {root : Int} {port : Option UInt32}
  {acp : AcpSocketFdStruct}

theorem SockStruct.names_of_get (conn : soS.acpSocketRb.get fd = some acp) :
    soS.Names fd acp.rootFdNumber := ⟨acp, RbTree.mem_of_get conn, rfl⟩

theorem SockStruct.names_iff_isSome : (∃ root, soS.Names fd root) ↔
    (soS.acpSocketRb.get fd).isSome = true := by
  rw [Option.isSome_iff_ne_none, Ne, RbTree.get_eq_none_iff_absent, not_not]
  constructor
  · rintro ⟨-, acp, mem, -⟩
    exact List.mem_map_of_mem mem
  · intro mem
    obtain ⟨⟨number, acp⟩, inside, rfl⟩ := List.mem_map.mp mem
    exact ⟨_, acp, inside, rfl⟩

/-- A number without a connection names no root. -/
theorem SockStruct.not_names (absent : soS.acpSocketRb.get fd = none) (root : Int) :
    ¬soS.Names fd root := by
  intro names
  have present := SockStruct.names_iff_isSome.mp ⟨root, names⟩
  simp [absent] at present

/-- The port of a connection whose roots all have the same port. -/
theorem getDestPort_leads (conn : soS.acpSocketRb.get fd = some acp) (leads : soS.Leads fd port) :
    getDestPort soS fd = port.elim (.error .nullDereference) fun port => .ok (some port) := by
  have read := leads _ (SockStruct.names_of_get conn)
  unfold SockStruct.rootPort at read
  cases rooted : soS.sockRb.get acp.rootFdNumber with
  | none =>
      rw [rooted] at read
      subst read
      exact getDestPort_unrooted conn rooted
  | some socStr =>
      rw [rooted] at read
      subst read
      exact getDestPort_present conn rooted

/-- Two numbers that are connected or not alike, and whose connections lead to the same port, have the
same lookups. -/
theorem lookups_congr (present : (∃ root, soS.Names fd root) ↔ ∃ root, other.Names otherFd root)
    (leads : soS.Leads fd port) (otherLeads : other.Leads otherFd port)
    (ports : soS.rootPort fd = other.rootPort otherFd) :
    soS.lookups fd = other.lookups otherFd := by
  rw [SockStruct.names_iff_isSome, SockStruct.names_iff_isSome, Bool.coe_iff_coe] at present
  have dest : getDestPort soS fd = getDestPort other otherFd := by
    cases conn : soS.acpSocketRb.get fd with
    | none =>
        rw [conn, Option.isSome_none, eq_comm, Option.isSome_eq_false_iff,
          Option.isNone_iff_eq_none] at present
        rw [getDestPort_absent conn, getDestPort_absent present]
    | some acp =>
        rw [conn, Option.isSome_some, eq_comm, Option.isSome_iff_exists] at present
        obtain ⟨otherAcp, otherConn⟩ := present
        rw [getDestPort_leads conn leads, getDestPort_leads otherConn otherLeads]
  simp only [SockStruct.lookups, isAcpSockFdPresent_eq, present, dest, ports]

end Names

section Removal

variable {soS : SockStruct} {fd other : Int} {port : UInt32} {otherPort : Option UInt32}

/-- The removal of a connection leaves the lookups of a number for which each root that both read
counts another connection. -/
theorem unregister_lookups (unique : soS.sockRb.Unique) (conn : soS.acpSocketRb.get fd ≠ none)
    (leads : soS.Leads fd (some port)) (otherLeads : soS.Leads other otherPort)
    (different : other ≠ fd)
    (counted : ∀ root, soS.Names fd root → soS.Reads other root → soS.Counted root) :
    ∃ later, unregisterSocketDescriptor soS fd = .ok (later, true) ∧
      later.lookups other = soS.lookups other := by
  obtain ⟨acp, conn⟩ := Option.ne_none_iff_exists'.mp conn
  have named := SockStruct.names_of_get conn
  obtain ⟨socStr, rooted, -⟩ := Option.map_eq_some_iff.mp (leads _ named)
  obtain ⟨node, later, done, -, roots, conns, key, -⟩ := unregister_trees unique conn rooted
  have names (root : Int) : later.Names other root ↔ soS.Names other root := by
    have perm := soS.acpSocketRb.entries_delete node
    simp only [SockStruct.Names, conns, perm.mem_iff, key, List.mem_cons, Prod.mk.injEq,
      different, false_and, false_or]
  have kept (root : Int) (reads : soS.Reads other root) :
      later.rootPort root = soS.rootPort root := by
    rw [SockStruct.rootPort, roots]
    split
    · rename_i same
      subst same
      obtain ⟨found, present, several⟩ := counted _ named reads
      obtain rfl := Option.some.inj (rooted.symm.trans present)
      have more : ¬socStr.refCount - 1 ≤ 0 := by omega
      rw [if_neg more, SockStruct.rootPort, rooted]
      rfl
    · rfl
  refine ⟨later, done, lookups_congr (exists_congr names) (fun root reads => ?_) otherLeads
    (kept other (.inr rfl))⟩
  rw [names] at reads
  rw [kept root (.inl reads), otherLeads root reads]

/-- The removal of the last counted connection takes the root away from the other connections. -/
theorem unregister_uncounted (unique : soS.sockRb.Unique) {acp : AcpSocketFdStruct}
    (conn : soS.acpSocketRb.get fd = some acp) {socStr : SocketFdStruct}
    (rooted : soS.sockRb.get acp.rootFdNumber = some socStr) (last : socStr.refCount ≤ 1)
    (different : other ≠ fd) (names : ∃ root, soS.Names other root)
    (single : ∀ root, soS.Names other root → root = acp.rootFdNumber) :
    ∃ later, unregisterSocketDescriptor soS fd = .ok (later, true) ∧
      later.lookups other ≠ soS.lookups other := by
  obtain ⟨node, later, done, -, roots, conns, key, -⟩ := unregister_trees unique conn rooted
  have same (root : Int) : later.Names other root ↔ soS.Names other root := by
    have perm := soS.acpSocketRb.entries_delete node
    simp only [SockStruct.Names, conns, perm.mem_iff, key, List.mem_cons, Prod.mk.injEq,
      different, false_and, false_or]
  have before : soS.Leads other (some socStr.port) := by
    intro root reads
    rw [single root reads, SockStruct.rootPort, rooted]
    rfl
  have after : later.Leads other none := by
    intro root reads
    have none' : socStr.refCount - 1 ≤ 0 := by omega
    rw [single root ((same root).mp reads), SockStruct.rootPort, roots, if_pos rfl, if_pos none']
    rfl
  have otherConn := SockStruct.names_iff_isSome.mp names
  have laterConn := SockStruct.names_iff_isSome.mp ((exists_congr same).mpr names)
  obtain ⟨otherAcp, otherConn⟩ := Option.isSome_iff_exists.mp otherConn
  obtain ⟨laterAcp, laterConn⟩ := Option.isSome_iff_exists.mp laterConn
  refine ⟨later, done, fun equal => ?_⟩
  have dest := congrArg Lookups.destPort equal
  simp only [SockStruct.lookups, getDestPort_leads otherConn before,
    getDestPort_leads laterConn after] at dest
  cases dest

end Removal

section Copy

variable {soS : SockStruct} {oldFd newFd : Int} {acp : AcpSocketFdStruct}

/-- The copy of a connection names the same root. -/
theorem copyFd_names (conn : soS.acpSocketRb.get oldFd = some acp) (fd root : Int) :
    (copyFd soS oldFd newFd).1.Names fd root ↔
      soS.Names fd root ∨ fd = newFd ∧ root = acp.rootFdNumber := by
  rw [copyFd_present conn]
  simp only [SockStruct.Names, (soS.acpSocketRb.entries_insert newFd acp).mem_iff, List.mem_cons,
    Prod.mk.injEq, or_and_right, exists_or, and_assoc, exists_and_left, exists_eq_left]
  rw [or_comm, eq_comm (a := root)]

theorem copyFd_sockRb : (copyFd soS oldFd newFd).1.sockRb = soS.sockRb := by
  unfold copyFd
  split <;> rfl

theorem copyFd_rootPort (fd : Int) :
    (copyFd soS oldFd newFd).1.rootPort fd = soS.rootPort fd := by
  rw [SockStruct.rootPort, copyFd_sockRb]
  rfl

/-- The copy keeps the port that the connections of a number lead to. -/
theorem copyFd_leads (conn : soS.acpSocketRb.get oldFd = some acp) {fd : Int}
    {port : Option UInt32} (leads : soS.Leads fd port)
    (copied : fd = newFd → soS.Leads oldFd port) :
    (copyFd soS oldFd newFd).1.Leads fd port := by
  intro root names
  rw [copyFd_rootPort]
  rcases (copyFd_names conn fd root).mp names with old | ⟨same, rfl⟩
  · exact leads root old
  · exact copied same _ (SockStruct.names_of_get conn)

/-- A number that is neither copied nor copied to keeps its lookups. -/
theorem copyFd_others (conn : soS.acpSocketRb.get oldFd = some acp) {fd : Int}
    (notNew : fd ≠ newFd) {port : Option UInt32} (leads : soS.Leads fd port) :
    (copyFd soS oldFd newFd).1.lookups fd = soS.lookups fd := by
  refine lookups_congr (exists_congr fun root => ?_)
    (copyFd_leads conn leads fun same => absurd same notNew) leads (copyFd_rootPort fd)
  rw [copyFd_names conn]
  simp [notNew]

/-- The copy of a shareable number agrees with it. -/
theorem Shareable.agree (unique : soS.sockRb.Unique) (shareable : Shareable soS oldFd newFd) :
    Agree soS (copyFd soS oldFd newFd).1 oldFd newFd := by
  cases conn : soS.acpSocketRb.get oldFd with
  | none =>
      have free := shareable.free conn
      rw [copyFd_absent conn]
      refine ⟨?_, fun _ _ _ => rfl, fun _ => ⟨soS, true, unregister_absent conn, rfl⟩,
        fun _ => ⟨soS, true, unregister_absent free, rfl⟩⟩
      have newLeads : soS.Leads newFd none :=
        fun root names => absurd names (SockStruct.not_names free root)
      have oldLeads : soS.Leads oldFd none :=
        fun root names => absurd names (SockStruct.not_names conn root)
      refine lookups_congr ?_ newLeads oldLeads shareable.ports
      simp [SockStruct.not_names free, SockStruct.not_names conn]
  | some acp =>
      have present : soS.acpSocketRb.get oldFd ≠ none := by simp [conn]
      have others (fd : Int) (_ : fd ≠ oldFd) (notNew : fd ≠ newFd) :
          (copyFd soS oldFd newFd).1.lookups fd = soS.lookups fd := by
        obtain ⟨port, leads⟩ := shareable.single present fd
        exact copyFd_others conn notNew leads
      by_cases different : oldFd = newFd
      · subst different
        exact ⟨rfl, others, fun different => absurd rfl different,
          fun different => absurd rfl different⟩
      obtain ⟨port, leads, newLeads⟩ := shareable.together present different
      have oldNext : (copyFd soS oldFd newFd).1.Leads oldFd (some port) :=
        copyFd_leads conn leads fun same => absurd same different
      have newNext : (copyFd soS oldFd newFd).1.Leads newFd (some port) :=
        copyFd_leads conn newLeads fun _ => leads
      have oldNames : (copyFd soS oldFd newFd).1.Names oldFd acp.rootFdNumber :=
        (copyFd_names conn _ _).mpr (.inl (SockStruct.names_of_get conn))
      have newNames : (copyFd soS oldFd newFd).1.Names newFd acp.rootFdNumber :=
        (copyFd_names conn _ _).mpr (.inr ⟨rfl, rfl⟩)
      have nextUnique : (copyFd soS oldFd newFd).1.sockRb.Unique := by rwa [copyFd_sockRb]
      -- A root that one number names and the other reads after the copy is the copied one or was
      -- read by both before.
      have counted (root : Int) (shared :
          (copyFd soS oldFd newFd).1.Names oldFd root ∧ (copyFd soS oldFd newFd).1.Reads newFd root ∨
          (copyFd soS oldFd newFd).1.Names newFd root ∧ (copyFd soS oldFd newFd).1.Reads oldFd root) :
          (copyFd soS oldFd newFd).1.Counted root := by
        rw [SockStruct.Counted, copyFd_sockRb]
        simp only [SockStruct.Reads, copyFd_names conn] at shared
        by_cases same : root = acp.rootFdNumber
        · exact same ▸ shareable.copied different acp conn
        · simp only [same, and_false, or_false] at shared
          exact shareable.counted different root shared
      refine ⟨?_, others, fun _ => ?_, fun _ => ?_⟩
      · refine lookups_congr (iff_of_true ⟨_, newNames⟩ ⟨_, oldNames⟩) newNext oldNext ?_
        rw [copyFd_rootPort, copyFd_rootPort, shareable.ports]
      · obtain ⟨later, closed, kept⟩ := unregister_lookups nextUnique
          (Option.isSome_iff_ne_none.mp (SockStruct.names_iff_isSome.mp ⟨_, oldNames⟩)) oldNext
          newNext (Ne.symm different) fun root names reads => counted root (.inl ⟨names, reads⟩)
        exact ⟨later, true, closed, kept⟩
      · obtain ⟨later, closed, kept⟩ := unregister_lookups nextUnique
          (Option.isSome_iff_ne_none.mp (SockStruct.names_iff_isSome.mp ⟨_, newNames⟩)) newNext
          oldNext different fun root names reads => counted root (.inr ⟨names, reads⟩)
        exact ⟨later, true, closed, kept⟩

/-- A copy whose removal leaves the original has a root that counts another connection. -/
theorem Agree.counted (unique : soS.sockRb.Unique) (conn : soS.acpSocketRb.get oldFd = some acp)
    (sole : ∀ root, soS.Names oldFd root ∨ soS.Names newFd root → root = acp.rootFdNumber)
    (agree : Agree soS (copyFd soS oldFd newFd).1 oldFd newFd) (different : oldFd ≠ newFd) :
    soS.Counted acp.rootFdNumber := by
  obtain ⟨later, result, closed, kept⟩ := agree.closeOld different
  have nextUnique : (copyFd soS oldFd newFd).1.sockRb.Unique := by rwa [copyFd_sockRb]
  have oldNames : (copyFd soS oldFd newFd).1.Names oldFd acp.rootFdNumber :=
    (copyFd_names conn _ _).mpr (.inl (SockStruct.names_of_get conn))
  have newNames : (copyFd soS oldFd newFd).1.Names newFd acp.rootFdNumber :=
    (copyFd_names conn _ _).mpr (.inr ⟨rfl, rfl⟩)
  obtain ⟨nextAcp, nextConn⟩ :=
    Option.isSome_iff_exists.mp (SockStruct.names_iff_isSome.mp ⟨_, oldNames⟩)
  have nextRoot : nextAcp.rootFdNumber = acp.rootFdNumber := by
    rcases (copyFd_names conn _ _).mp (SockStruct.names_of_get nextConn) with old | ⟨-, same⟩
    · exact sole _ (.inl old)
    · exact same
  cases rooted : soS.sockRb.get acp.rootFdNumber with
  | none =>
      rw [unregister_unrooted nextConn (by rw [nextRoot, copyFd_sockRb, rooted])] at closed
      cases closed
  | some socStr =>
      refine ⟨socStr, rooted, ?_⟩
      by_contra few
      obtain ⟨other, run, lost⟩ := unregister_uncounted nextUnique nextConn
        (by rw [nextRoot, copyFd_sockRb, rooted]) (by omega) (Ne.symm different) ⟨_, newNames⟩
        fun root names => by
          rw [nextRoot]
          rcases (copyFd_names conn _ _).mp names with old | ⟨-, same⟩
          · exact sole root (.inr old)
          · exact same
      obtain ⟨rfl, -⟩ := Prod.mk.inj (Except.ok.inj (run.symm.trans closed))
      exact lost kept

/-- Where no number has connections of two roots, a copy that agrees with its original was
shareable. -/
theorem Agree.shareable (unique : soS.sockRb.Unique) (unmixed : Unmixed soS oldFd newFd)
    (agree : Agree soS (copyFd soS oldFd newFd).1 oldFd newFd) : Shareable soS oldFd newFd := by
  have ports := congrArg Lookups.rootPort agree.same
  simp only [SockStruct.lookups, copyFd_rootPort] at ports
  cases conn : soS.acpSocketRb.get oldFd with
  | none =>
      have same := congrArg Lookups.present agree.same
      simp only [copyFd_absent conn, SockStruct.lookups, isAcpSockFdPresent_eq, conn,
        Option.isSome_none, Option.isSome_eq_false_iff, Option.isNone_iff_eq_none] at same
      refine ⟨ports, fun _ => same, fun present => absurd conn present,
        fun present => absurd conn present, fun _ acp present => ?_, fun _ root shared => ?_⟩
      · cases conn.symm.trans present
      · rcases shared with ⟨names, -⟩ | ⟨names, -⟩
        · exact absurd names (SockStruct.not_names conn root)
        · exact absurd names (SockStruct.not_names same root)
  | some acp =>
      have named := SockStruct.names_of_get conn
      have sole (root : Int) (names : soS.Names oldFd root ∨ soS.Names newFd root) :
          root = acp.rootFdNumber := by
        rcases names with names | names
        · exact unmixed.single oldFd root _ names named
        · exact (unmixed.met _ root named names).symm
      have counted := agree.counted unique conn sole
      refine ⟨ports, fun absent => ?_, fun _ fd => ?_, fun _ different => ?_,
        fun different other found => ?_, fun different root shared => ?_⟩
      · cases conn.symm.trans absent
      · by_cases names : ∃ root, soS.Names fd root
        · obtain ⟨root, names⟩ := names
          exact ⟨soS.rootPort root, fun other otherNames => by
            rw [unmixed.single fd other root otherNames names]⟩
        · exact ⟨none, fun root found => absurd ⟨root, found⟩ names⟩
      · obtain ⟨socStr, rooted, -⟩ := counted different
        have port (root : Int) (names : soS.Names oldFd root ∨ soS.Names newFd root) :
            soS.rootPort root = some socStr.port := by
          rw [sole root names, SockStruct.rootPort, rooted]
          rfl
        exact ⟨socStr.port, fun root names => port root (.inl names),
          fun root names => port root (.inr names)⟩
      · obtain rfl := Option.some.inj (conn.symm.trans found)
        exact counted different
      · rcases shared with ⟨names, -⟩ | ⟨names, -⟩
        · exact sole root (.inl names) ▸ counted different
        · exact sole root (.inr names) ▸ counted different

end Copy

/-- A duplicate in this section agrees with its original. -/
def Section.Agrees (contStr : ControllerStruct) (event : Section) (next : ControllerStruct) : Prop :=
  ∀ oldFd newFd, event.copied = some (oldFd, newFd) →
    Agree contStr.socStr next.socStr oldFd newFd

/-- A duplicate in this section meets a shareable descriptor. -/
def Section.Shares (contStr : ControllerStruct) (event : Section) : Prop :=
  ∀ oldFd newFd, event.copied = some (oldFd, newFd) → Shareable contStr.socStr oldFd newFd

/-- A duplicate in this section brings no two roots under one number. -/
def Section.Separate (contStr : ControllerStruct) (event : Section) : Prop :=
  ∀ oldFd newFd, event.copied = some (oldFd, newFd) → Unmixed contStr.socStr oldFd newFd

section Runs

variable {contStr next : ControllerStruct} {event : Section} {oldFd newFd : Int}

theorem SectionStep.copied (taken : SectionStep contStr event next)
    (copies : event.copied = some (oldFd, newFd)) :
    next.socStr = (copyFd contStr.socStr oldFd newFd).1 := by
  cases taken with
  | dup first second =>
      simp only [Section.copied, Option.ite_none_right_eq_some, Option.some.injEq,
        Prod.mk.injEq] at copies
      obtain ⟨proper, rfl, rfl⟩ := copies
      rw [BandwidthLimiter.dup, if_pos proper]
      rfl
  | dup2 first second returnVal =>
      simp only [Section.copied, Option.ite_none_right_eq_some, Option.some.injEq,
        Prod.mk.injEq] at copies
      obtain ⟨proper, rfl, rfl⟩ := copies
      rw [BandwidthLimiter.dup2, if_pos proper]
      rfl
  | _ => cases copies

theorem initSock_unique {soS : SockStruct} (unique : soS.sockRb.Unique) (fd : Int)
    (port : UInt32) : (initSock soS fd port).1.sockRb.Unique := by
  cases absent : soS.sockRb.get fd with
  | some root => rwa [initSock_old absent]
  | none =>
      rw [initSock_new absent]
      exact unique.insert absent

theorem registerSock_unique {soS : SockStruct} (unique : soS.sockRb.Unique) (org new : Int) :
    (registerSock soS org new).1.sockRb.Unique := by
  unfold registerSock
  split
  · exact unique.setInfo _ _
  · exact unique

theorem unregister_unique {soS next : SockStruct} {fd : Int} {result : Bool}
    (unique : soS.sockRb.Unique)
    (done : unregisterSocketDescriptor soS fd = .ok (next, result)) : next.sockRb.Unique := by
  cases conn : soS.acpSocketRb.get fd with
  | none =>
      rw [unregister_absent conn] at done
      exact (Prod.mk.inj (Except.ok.inj done)).1 ▸ unique
  | some acp =>
      cases rooted : soS.sockRb.get acp.rootFdNumber with
      | none =>
          rw [unregister_unrooted conn rooted] at done
          cases done
      | some root =>
          obtain ⟨-, later, run, kept, -⟩ := unregister_trees unique conn rooted
          exact (Prod.mk.inj (Except.ok.inj (run.symm.trans done))).1 ▸ kept

theorem bind_unique (unique : contStr.socStr.sockRb.Unique) (fd : Int) (addr : Sockaddr) :
    (bind contStr fd addr).socStr.sockRb.Unique := by
  unfold bind regisNewCreatedSocket
  split
  · exact initSock_unique unique fd addr.port
  · exact unique

theorem connect_unique (unique : contStr.socStr.sockRb.Unique) (fd : Int) (addr : Sockaddr) :
    (connect contStr fd addr).socStr.sockRb.Unique := by
  have bound : (regisNewCreatedSocket contStr fd addr.port).1.socStr.sockRb.Unique :=
    bind_unique unique fd addr
  simp only [connect]
  split
  · exact registerSock_unique bound fd fd
  · exact bound

theorem accept_unique (unique : contStr.socStr.sockRb.Unique) (fd acpFd : Int) :
    (accept contStr fd acpFd).socStr.sockRb.Unique := by
  unfold accept
  split
  · exact registerSock_unique unique fd acpFd
  · exact unique

/-- Every section keeps one root for each number. -/
theorem SectionStep.unique (unique : contStr.socStr.sockRb.Unique)
    (taken : SectionStep contStr event next) : next.socStr.sockRb.Unique := by
  cases copies : event.copied with
  | some pair => rwa [taken.copied copies, copyFd_sockRb]
  | none =>
      cases taken with
      | bind fd addr => exact bind_unique unique fd addr
      | connect fd addr => exact connect_unique unique fd addr
      | accept fd acpFd => exact accept_unique unique fd acpFd
      | close done =>
          obtain ⟨soS, result, run, rfl⟩ := close_done done
          exact unregister_unique unique run
      | dup first second =>
          have failed : ¬second ≠ -1 := by simpa [Section.copied] using copies
          rwa [BandwidthLimiter.dup, if_neg failed]
      | dup2 first second returnVal =>
          have failed : ¬returnVal ≠ -1 := by simpa [Section.copied] using copies
          rwa [BandwidthLimiter.dup2, if_neg failed]
      | enter done => exact (preOp_budget done).sockets ▸ unique
      | leave done => exact (leave_budget done).sockets ▸ unique

theorem Reachable.unique (reachable : Reachable contStr) : contStr.socStr.sockRb.Unique := by
  obtain ⟨env, events, -, run⟩ := reachable
  exact run.invariant (fun contStr => contStr.socStr.sockRb.Unique) RbTree.unique_create
    fun _ _ _ unique taken => taken.unique unique

/-- In every reachable state a duplicate that meets a shareable descriptor agrees with its original,
and where it brings no two roots under one number it agrees only then. -/
theorem duplicate_agrees (reachable : Reachable contStr) (taken : SectionStep contStr event next) :
    (event.Shares contStr → event.Agrees contStr next) ∧
      (event.Separate contStr → event.Agrees contStr next → event.Shares contStr) := by
  refine ⟨fun shares oldFd newFd copies => ?_, fun separate agrees oldFd newFd copies => ?_⟩
  · rw [taken.copied copies]
    exact (shares oldFd newFd copies).agree reachable.unique
  · have agree := agrees oldFd newFd copies
    rw [taken.copied copies] at agree
    exact agree.shareable reachable.unique (separate oldFd newFd copies)

end Runs

section Server

/-- The server socket 3 with the connections 4 and 5. -/
def serverPair : ControllerStruct := accept (accept serverSocket 3 4) 3 5

theorem serverPair_reachable : Reachable serverPair :=
  ⟨_, [.bind 3 ⟨afInet, 0, 80⟩, .accept 3 4, .accept 3 5], .environment 80 5 5 0,
    .cons (.bind 3 ⟨afInet, 0, 80⟩) (.cons (.accept 3 4) (.cons (.accept 3 5) .start))⟩

set_option maxRecDepth 4000 in
theorem serverPair_entries : serverPair.socStr.acpSocketRb.entries =
    [(4, ⟨3, .zero, .zero⟩), (5, ⟨3, .zero, .zero⟩)] := by decide

theorem serverPair_names {fd root : Int} (names : serverPair.socStr.Names fd root) : root = 3 := by
  obtain ⟨acp, mem, rfl⟩ := names
  simp only [serverPair_entries, List.mem_cons, Prod.mk.injEq, List.not_mem_nil, or_false] at mem
  rcases mem with ⟨-, rfl⟩ | ⟨-, rfl⟩ <;> rfl

set_option maxRecDepth 4000 in
theorem serverPair_root : serverPair.socStr.sockRb.get 3 = some ⟨80, 2⟩ := by decide

set_option maxRecDepth 4000 in
/-- A connection of a root with two connections is copied to the number of the other one. -/
theorem serverPair_shareable : Shareable serverPair.socStr 4 5 := by
  have leads (fd : Int) : serverPair.socStr.Leads fd (some 80) := by
    intro root names
    rw [serverPair_names names, SockStruct.rootPort, serverPair_root]
    rfl
  have counted : serverPair.socStr.Counted 3 := ⟨_, serverPair_root, by decide⟩
  refine ⟨by decide, by decide, fun _ fd => ⟨_, leads fd⟩, fun _ _ => ⟨80, leads 4, leads 5⟩,
    fun _ acp conn => ?_, fun _ root shared => ?_⟩
  · exact serverPair_names (SockStruct.names_of_get conn) ▸ counted
  · rcases shared with ⟨names, -⟩ | ⟨names, -⟩
    · exact serverPair_names names ▸ counted
    · exact serverPair_names names ▸ counted

set_option maxRecDepth 4000 in
/-- The `dup2` of the connection 4 onto the registered connection 5 agrees. -/
theorem serverPair_duplicate : isAcpSockFdPresent serverPair.socStr 4 = true ∧
    isAcpSockFdPresent serverPair.socStr 5 = true ∧
    Agree serverPair.socStr (dup2 serverPair 4 5 5).socStr 4 5 :=
  ⟨by decide, by decide, (duplicate_agrees serverPair_reachable (.dup2 4 5 5)).1
    (fun _ _ copies => by
      obtain ⟨rfl, rfl⟩ := Prod.mk.inj (Option.some.inj copies)
      exact serverPair_shareable) 4 5 rfl⟩

set_option maxRecDepth 4000 in
/-- The duplicate of the only connection loses its port when the connection is closed. -/
theorem serverSocket_duplicate :
    ¬∀ (contStr next : ControllerStruct) (event : Section), Reachable contStr →
      SectionStep contStr event next → event.Agrees contStr next := by
  intro assumed
  have reachable : Reachable (accept serverSocket 3 4) :=
    ⟨_, [.bind 3 ⟨afInet, 0, 80⟩, .accept 3 4], .environment 80 5 5 0,
      .cons (.bind 3 ⟨afInet, 0, 80⟩) (.cons (.accept 3 4) .start)⟩
  have agree := assumed _ _ (.dup 4 5) reachable (.dup 4 5) 4 5 rfl
  obtain ⟨later, result, closed, kept⟩ := agree.closeOld (by decide)
  have dest : getDestPort (dup (accept serverSocket 3 4) 4 5).socStr 5 = .ok (some 80) := by decide
  have invariant : SockInvariant (accept serverSocket 3 4).socStr :=
    (SockInvariant.setup.initSock 3 80).registerSock 3 4
  have conn : (accept serverSocket 3 4).socStr.acpSocketRb.get 4 = some ⟨3, .zero, .zero⟩ := by
    decide
  have rooted : (accept serverSocket 3 4).socStr.sockRb.get 3 = some ⟨80, 1⟩ := by decide
  have free : (accept serverSocket 3 4).socStr.acpSocketRb.get 5 = none := by decide
  obtain ⟨other, run, lost, -⟩ :=
    copyFd_unrooted invariant.keyed conn rooted (by decide) free
  obtain ⟨rfl, -⟩ := Prod.mk.inj (Except.ok.inj (run.symm.trans closed))
  have same := congrArg Lookups.destPort kept
  rw [SockStruct.lookups, SockStruct.lookups, lost, dest] at same
  cases same

end Server

end BandwidthLimiter
