import BandwidthLimiter.Foundation.Fuel
import BandwidthLimiter.Foundation.Ring

namespace BandwidthLimiter
open Foundation

/-- A link field holds an address or one of the values LIST_POISON1 and LIST_POISON2. -/
inductive ListPointer where
  | address (a : Nat)
  | poison1
  | poison2
  deriving DecidableEq, Repr

/-- The link fields of all list heads, and the nodes that were freed, in order. -/
structure ListHeap where
  next : Nat → ListPointer
  prev : Nat → ListPointer
  freed : List Nat

namespace ListHeap

/-- A read gives the address in a field of a living node; a poisoned or freed link gives nothing. -/
def readField (heap : ListHeap) (field : Nat → ListPointer) (a : Nat) : Option Nat :=
  if a ∈ heap.freed then none
  else
    match field a with
    | .address b => some b
    | .poison1 | .poison2 => none

def readNext (heap : ListHeap) (a : Nat) : Option Nat := heap.readField heap.next a

def readPrev (heap : ListHeap) (a : Nat) : Option Nat := heap.readField heap.prev a

def setNext (heap : ListHeap) (a : Nat) (p : ListPointer) : ListHeap :=
  { heap with next := fun x => if x = a then p else heap.next x }

def setPrev (heap : ListHeap) (a : Nat) (p : ListPointer) : ListHeap :=
  { heap with prev := fun x => if x = a then p else heap.prev x }

def writeNext (heap : ListHeap) (a : Nat) (p : ListPointer) : Option ListHeap :=
  if a ∈ heap.freed then none else some (heap.setNext a p)

def writePrev (heap : ListHeap) (a : Nat) (p : ListPointer) : Option ListHeap :=
  if a ∈ heap.freed then none else some (heap.setPrev a p)

/-- The call `free` on the structure around a node; a second one is not allowed. -/
def free (heap : ListHeap) (a : Nat) : Option ListHeap :=
  if a ∈ heap.freed then none else some { heap with freed := heap.freed ++ [a] }

end ListHeap

def initListHead (heap : ListHeap) (list : Nat) : Option ListHeap := do
  let heap ← heap.writeNext list (.address list)
  heap.writePrev list (.address list)

def addList (heap : ListHeap) (new prev next : Nat) : Option ListHeap := do
  let heap ← heap.writePrev next (.address new)
  let heap ← heap.writeNext new (.address next)
  let heap ← heap.writePrev new (.address prev)
  heap.writeNext prev (.address new)

def listAddTail (heap : ListHeap) (new head : Nat) : Option ListHeap := do
  let prev ← heap.readPrev head
  addList heap new prev head

/-- The rest of the loop `list_for_each`, with the nodes that it visits. -/
def forEachLoop (heap : ListHeap) (head : Nat) : Nat → Nat → Option (List Nat)
  | 0, _ => none
  | fuel + 1, pos =>
      if pos ≠ head then do
        let following ← heap.readNext pos
        let visited ← forEachLoop heap head fuel following
        return pos :: visited
      else some []

def listForEach (fuel : Nat) (heap : ListHeap) (head : Nat) : Option (List Nat) := do
  let pos ← heap.readNext head
  forEachLoop heap head fuel pos

/-- The inner `__delete_list__`. -/
def unlink (heap : ListHeap) (next prev : Nat) : Option ListHeap := do
  let heap ← heap.writeNext prev (.address next)
  heap.writePrev next (.address prev)

def deleteList (heap : ListHeap) (entry : Nat) : Option ListHeap := do
  let next ← heap.readNext entry
  let prev ← heap.readPrev entry
  let heap ← unlink heap next prev
  let heap ← heap.writeNext entry .poison1
  heap.writePrev entry .poison2

/-- The rest of the loop `list_for_each_safe` of the cleanup. -/
def cleanupLoop (head : Nat) : Nat → ListHeap → Nat → Nat → Option ListHeap
  | 0, _, _, _ => none
  | fuel + 1, heap, pos, n =>
      if pos ≠ head then do
        let heap ← deleteList heap pos
        let heap ← heap.free pos
        let following ← heap.readNext n
        cleanupLoop head fuel heap n following
      else some heap

def doCleanupList (fuel : Nat) (heap : ListHeap) (head : Nat) : Option ListHeap := do
  let pos ← heap.readNext head
  let n ← heap.readNext pos
  cleanupLoop head fuel heap pos n

/-- The head is set up, and the nodes are added one after the other. -/
def buildList (heap : ListHeap) (head : Nat) (nodes : List Nat) : Option ListHeap := do
  let heap ← initListHead heap head
  nodes.foldlM (fun heap new => listAddTail heap new head) heap

/-- The living nodes form a ring through the head. -/
structure Ring (heap : ListHeap) (head : Nat) (nodes : List Nat) : Prop where
  linked : Segment .address heap.next heap.prev head nodes head
  distinct : (head :: nodes).Nodup
  live : ∀ a ∈ head :: nodes, a ∉ heap.freed

/-- The links of the ring agree in both directions. -/
def Mirrored (heap : ListHeap) (ring : List Nat) : Prop :=
  (∀ a ∈ ring, ∃ b ∈ ring, heap.next a = .address b ∧ heap.prev b = .address a) ∧
    ∀ b ∈ ring, ∃ a ∈ ring, heap.next a = .address b ∧ heap.prev b = .address a

/-- Each node was freed once, in order, its links are poisoned, and the head is alone. -/
structure Cleaned (before after : ListHeap) (head : Nat) (nodes : List Nat) : Prop where
  freed : after.freed = before.freed ++ nodes
  poisoned : ∀ a ∈ nodes, after.next a = .poison1 ∧ after.prev a = .poison2
  alone : after.next head = .address head ∧ after.prev head = .address head
  untouched : ∀ a ∉ head :: nodes, after.next a = before.next a ∧ after.prev a = before.prev a

section Access

variable {heap : ListHeap} {a b : Nat} {p : ListPointer}

@[simp] theorem setNext_next (heap : ListHeap) (a x : Nat) (p : ListPointer) :
    (heap.setNext a p).next x = if x = a then p else heap.next x := rfl

@[simp] theorem setNext_prev (heap : ListHeap) (a : Nat) (p : ListPointer) :
    (heap.setNext a p).prev = heap.prev := rfl

@[simp] theorem setNext_freed (heap : ListHeap) (a : Nat) (p : ListPointer) :
    (heap.setNext a p).freed = heap.freed := rfl

@[simp] theorem setPrev_prev (heap : ListHeap) (a x : Nat) (p : ListPointer) :
    (heap.setPrev a p).prev x = if x = a then p else heap.prev x := rfl

@[simp] theorem setPrev_next (heap : ListHeap) (a : Nat) (p : ListPointer) :
    (heap.setPrev a p).next = heap.next := rfl

@[simp] theorem setPrev_freed (heap : ListHeap) (a : Nat) (p : ListPointer) :
    (heap.setPrev a p).freed = heap.freed := rfl

theorem readNext_eq (live : a ∉ heap.freed) (link : heap.next a = .address b) :
    heap.readNext a = some b := by
  simp [ListHeap.readNext, ListHeap.readField, live, link]

theorem readPrev_eq (live : a ∉ heap.freed) (link : heap.prev a = .address b) :
    heap.readPrev a = some b := by
  simp [ListHeap.readPrev, ListHeap.readField, live, link]

theorem addList_eq {new prev next : Nat} (liveNew : new ∉ heap.freed) (livePrev : prev ∉ heap.freed)
    (liveNext : next ∉ heap.freed) : addList heap new prev next =
      some ((((heap.setPrev next (.address new)).setNext new (.address next)).setPrev new
        (.address prev)).setNext prev (.address new)) := by
  simp [addList, ListHeap.writeNext, ListHeap.writePrev, liveNew, livePrev, liveNext]

theorem deleteList_eq {entry prev next : Nat} (forward : heap.next entry = .address next)
    (backward : heap.prev entry = .address prev) (liveEntry : entry ∉ heap.freed)
    (livePrev : prev ∉ heap.freed) (liveNext : next ∉ heap.freed) : deleteList heap entry =
      some ((((heap.setNext prev (.address next)).setPrev next (.address prev)).setNext entry
        .poison1).setPrev entry .poison2) := by
  simp [deleteList, unlink, readNext_eq liveEntry forward, readPrev_eq liveEntry backward,
    ListHeap.writeNext, ListHeap.writePrev, liveEntry, livePrev, liveNext]

end Access

section Operations

variable {heap : ListHeap} {head new entry : Nat} {nodes rest : List Nat}

/-- A fresh head is a ring without nodes. -/
theorem initListHead_spec (live : head ∉ heap.freed) :
    ∃ after, initListHead heap head = some after ∧ Ring after head [] ∧
      after.freed = heap.freed := by
  refine ⟨(heap.setNext head (.address head)).setPrev head (.address head), ?_,
    ⟨⟨by simp, by simp⟩, by simp, by simpa using live⟩, rfl⟩
  simp [initListHead, ListHeap.writeNext, ListHeap.writePrev, live]

/-- A new node goes between the last node and the head. -/
theorem listAddTail_spec (ring : Ring heap head nodes) (fresh : new ∉ head :: nodes)
    (live : new ∉ heap.freed) :
    ∃ after, listAddTail heap new head = some after ∧ Ring after head (nodes ++ [new]) ∧
      after.freed = heap.freed := by
  have last := lastCell_mem head nodes
  have backward := ring.linked.prev_end
  have liveHead := ring.live head (by simp)
  have liveLast := ring.live _ last
  have newHead : new ≠ head := fun same => fresh (same ▸ List.mem_cons_self)
  have newLast : new ≠ lastCell head nodes := fun same => fresh (same ▸ last)
  have headOutside := (List.nodup_cons.mp ring.distinct).1
  refine ⟨(((heap.setPrev head (.address new)).setNext new (.address head)).setPrev new
    (.address (lastCell head nodes))).setNext (lastCell head nodes) (.address new), ?_,
    ⟨?_, ?_, ?_⟩, rfl⟩
  · rw [listAddTail, readPrev_eq liveHead backward]
    exact addList_eq live liveLast liveHead
  · refine ring.linked.concat ring.distinct ?_ ?_ ?_ ?_ ?_ ?_
    · simp
    · simp [newLast]
    · simp
    · simp [Ne.symm newHead]
    · intro x mem other
      have old : x ≠ new := fun same => fresh (same ▸ mem)
      simp [other, old]
    · intro x mem
      have old : x ≠ new := fun same => fresh (same ▸ List.mem_cons_of_mem _ mem)
      have inner : x ≠ head := fun same => headOutside (same ▸ mem)
      simp [old, inner]
  · rw [← List.cons_append]
    exact ring.distinct.append (by simp) (by simpa using fresh)
  · intro a mem
    simp only [setNext_freed, setPrev_freed]
    rcases List.mem_append.mp (List.cons_append ▸ mem) with old | added
    · exact ring.live a old
    · exact List.mem_singleton.mp added ▸ live

/-- The calls on `nodes` put them behind the nodes of the ring. -/
theorem addAll_spec (ring : Ring heap head nodes) (distinct : (head :: nodes ++ rest).Nodup)
    (live : ∀ a ∈ rest, a ∉ heap.freed) :
    ∃ after, rest.foldlM (fun heap new => listAddTail heap new head) heap = some after ∧
      Ring after head (nodes ++ rest) ∧ after.freed = heap.freed := by
  induction rest generalizing heap nodes with
  | nil => exact ⟨heap, rfl, by simpa using ring, rfl⟩
  | cons new rest ih =>
      have fresh : new ∉ head :: nodes := fun old =>
        List.disjoint_of_nodup_append distinct old List.mem_cons_self
      obtain ⟨added, add, addedRing, addedFreed⟩ :=
        listAddTail_spec ring fresh (live new List.mem_cons_self)
      obtain ⟨after, adds, afterRing, afterFreed⟩ := ih addedRing (by simpa using distinct)
        (fun a mem => addedFreed ▸ live a (List.mem_cons_of_mem _ mem))
      refine ⟨after, ?_, by simpa using afterRing, afterFreed.trans addedFreed⟩
      rw [List.foldlM_cons, add]
      exact adds

/-- A node leaves the ring, and its links are poisoned. -/
theorem deleteList_spec (ring : Ring heap head (nodes ++ entry :: rest)) :
    ∃ after, deleteList heap entry = some after ∧ Ring after head (nodes ++ rest) ∧
      after.freed = heap.freed ∧ (after.next entry = .poison1 ∧ after.prev entry = .poison2) ∧
      ∀ a ∉ head :: (nodes ++ entry :: rest),
        after.next a = heap.next a ∧ after.prev a = heap.prev a := by
  obtain ⟨before, behind⟩ := Segment.append.mp ring.linked
  have whole : (head :: nodes ++ entry :: rest).Nodup := ring.distinct
  obtain ⟨fresh, distinct⟩ := List.nodup_cons.mp (List.nodup_middle.mp whole)
  have other : ∀ a ∈ head :: (nodes ++ rest), a ≠ entry := fun a mem same => fresh (same ▸ mem)
  have inside : ∀ a ∈ head :: (nodes ++ rest), a ∈ head :: (nodes ++ entry :: rest) := by
    intro a mem
    simp only [List.mem_cons, List.mem_append] at mem ⊢
    tauto
  have last : lastCell head nodes ∈ head :: (nodes ++ rest) :=
    List.mem_append_left rest (lastCell_mem head nodes)
  have first : firstCell rest head ∈ head :: (nodes ++ rest) := by
    rcases List.mem_cons.mp (firstCell_mem rest head) with same | mem
    · rw [same]
      exact List.mem_cons_self
    · exact List.mem_cons_of_mem _ (List.mem_append_right nodes mem)
  refine ⟨(((heap.setNext (lastCell head nodes) (.address (firstCell rest head))).setPrev
    (firstCell rest head) (.address (lastCell head nodes))).setNext entry .poison1).setPrev entry
      .poison2, ?_, ⟨?_, distinct, fun a mem => ring.live a (inside a mem)⟩, rfl, by simp, ?_⟩
  · exact deleteList_eq behind.next_start before.prev_end (ring.live entry (by simp))
      (ring.live _ (inside _ last)) (ring.live _ (inside _ first))
  · refine ring.linked.remove ring.distinct (List.nodup_cons.mp ring.distinct).1 ?_ ?_ ?_ ?_
    · simp [other _ last]
    · simp [other _ first]
    · intro a mem away
      simp [other a mem, away]
    · intro a mem away
      have kept : a ∈ head :: (nodes ++ rest) := by
        simp only [List.mem_append, List.mem_cons, List.not_mem_nil, or_false] at mem ⊢
        tauto
      simp [other a kept, away]
  · intro a outside
    have away : a ≠ entry := fun same => outside (by simp [same])
    have notLast : a ≠ lastCell head nodes := fun same => outside (same ▸ inside _ last)
    have notFirst : a ≠ firstCell rest head := fun same => outside (same ▸ inside _ first)
    simp [away, notLast, notFirst]

/-- The loop visits the nodes that are left and stops at the head. -/
theorem forEachLoop_spec {a : Nat} (segment : Segment .address heap.next heap.prev a nodes head)
    (live : ∀ a ∈ nodes, a ∉ heap.freed) (outside : head ∉ nodes) :
    ∀ fuel > nodes.length, forEachLoop heap head fuel (firstCell nodes head) = some nodes := by
  induction nodes generalizing a with
  | nil =>
      intro fuel enough
      obtain ⟨fuel, rfl, -⟩ := exists_fuel enough
      exact if_neg (not_not.mpr rfl)
  | cons pos rest ih =>
      intro fuel enough
      obtain ⟨fuel, rfl, spare⟩ := exists_fuel enough
      have other : pos ≠ head := fun same => outside (same ▸ List.mem_cons_self)
      have following := readNext_eq (live pos List.mem_cons_self) segment.2.next_start
      have visited := ih segment.2 (fun a mem => live a (List.mem_cons_of_mem _ mem))
        (fun mem => outside (List.mem_cons_of_mem _ mem)) fuel spare
      rw [firstCell_cons, forEachLoop, if_pos other, following]
      simp [visited]

theorem listForEach_spec (ring : Ring heap head nodes) :
    ∀ fuel > nodes.length, listForEach fuel heap head = some nodes := by
  intro fuel enough
  have live : ∀ a ∈ nodes, a ∉ heap.freed := fun a mem => ring.live a (List.mem_cons_of_mem _ mem)
  rw [listForEach, readNext_eq (ring.live head List.mem_cons_self) ring.linked.next_start]
  exact forEachLoop_spec ring.linked live (List.nodup_cons.mp ring.distinct).1 fuel enough

theorem mirrored (ring : Ring heap head nodes) : Mirrored heap (head :: nodes) := by
  have rotated : ∀ a, a ∈ nodes ++ [head] ↔ a ∈ head :: nodes := by
    intro a
    simp [or_comm]
  refine ⟨fun a mem => ?_, fun b mem => ?_⟩
  · obtain ⟨b, inside, links⟩ := ring.linked.mirror_next mem
    exact ⟨b, (rotated b).mp inside, links⟩
  · exact ring.linked.mirror_prev ((rotated b).mpr mem)

/-- One round of the cleanup: the first node is unlinked and freed, and the rest is still a ring. -/
theorem cleanup_round (ring : Ring heap head (entry :: rest)) :
    ∃ deleted after, deleteList heap entry = some deleted ∧ deleted.free entry = some after ∧
      Ring after head rest ∧ after.freed = heap.freed ++ [entry] ∧
      (after.next entry = .poison1 ∧ after.prev entry = .poison2) ∧
      ∀ a ∉ head :: entry :: rest, after.next a = heap.next a ∧ after.prev a = heap.prev a := by
  have front : Ring heap head ([] ++ entry :: rest) := ring
  obtain ⟨deleted, delete, left, freed, poisoned, untouched⟩ := deleteList_spec front
  have outside : entry ∉ deleted.freed := freed ▸ ring.live entry (by simp)
  refine ⟨deleted, { deleted with freed := deleted.freed ++ [entry] }, delete, if_neg outside,
    ⟨left.linked, left.distinct, ?_⟩, by rw [freed], poisoned, untouched⟩
  intro a mem
  have other : a ≠ entry := by
    rintro rfl
    obtain ⟨headOutside, distinct⟩ := List.nodup_cons.mp ring.distinct
    rcases List.mem_cons.mp mem with rfl | mem
    · exact headOutside List.mem_cons_self
    · exact (List.nodup_cons.mp distinct).1 mem
  simp [left.live a mem, other]

/-- The node that `n` stores is in the ring that is left, so its link may be read. -/
theorem cleanupLoop_spec (ring : Ring heap head nodes) {n : Nat}
    (following : heap.next (firstCell nodes head) = .address n) :
    ∃ after, (∀ fuel > nodes.length,
        cleanupLoop head fuel heap (firstCell nodes head) n = some after) ∧
      Cleaned heap after head nodes := by
  induction nodes generalizing heap n with
  | nil =>
      refine ⟨heap, ?_, ⟨by simp, by simp, ring.linked, fun _ _ => ⟨rfl, rfl⟩⟩⟩
      intro fuel enough
      obtain ⟨fuel, rfl, -⟩ := exists_fuel enough
      exact if_neg (not_not.mpr rfl)
  | cons entry rest ih =>
      obtain ⟨deleted, round, delete, free, roundRing, freed, poisoned, untouched⟩ :=
        cleanup_round ring
      have outside := (List.nodup_cons.mp ring.distinct).1
      have other : entry ≠ head := fun same => outside (same ▸ List.mem_cons_self)
      have fresh := (List.nodup_cons.mp (List.nodup_cons.mp ring.distinct).2).1
      obtain ⟨second, -, link, -⟩ := roundRing.linked.mirror_next (firstCell_mem rest head)
      have readable := roundRing.live _ (firstCell_mem rest head)
      obtain rfl : n = firstCell rest head :=
        ListPointer.address.inj (following.symm.trans ring.linked.2.next_start)
      obtain ⟨after, run, cleaned⟩ := ih roundRing link
      refine ⟨after, ?_, ⟨?_, ?_, cleaned.alone, ?_⟩⟩
      · intro fuel enough
        obtain ⟨fuel, rfl, spare⟩ := exists_fuel enough
        rw [firstCell_cons, cleanupLoop, if_pos other, delete]
        simp only [Option.bind_eq_bind, Option.bind_some]
        rw [free]
        simp only [Option.bind_some]
        rw [readNext_eq readable link]
        exact run fuel spare
      · rw [cleaned.freed, freed, List.append_assoc]
        rfl
      · intro a mem
        rcases List.mem_cons.mp mem with rfl | mem
        · have apart : a ∉ head :: rest := by simp [other, fresh]
          obtain ⟨next, prev⟩ := cleaned.untouched a apart
          exact ⟨next.trans poisoned.1, prev.trans poisoned.2⟩
        · exact cleaned.poisoned a mem
      · intro a away
        obtain ⟨next, prev⟩ := untouched a away
        have apart : a ∉ head :: rest := by
          simp only [List.mem_cons, not_or] at away ⊢
          exact ⟨away.1, away.2.2⟩
        obtain ⟨lateNext, latePrev⟩ := cleaned.untouched a apart
        exact ⟨lateNext.trans next, latePrev.trans prev⟩

theorem doCleanupList_spec (ring : Ring heap head nodes) :
    ∃ after, (∀ fuel > nodes.length, doCleanupList fuel heap head = some after) ∧
      Cleaned heap after head nodes := by
  have inside := firstCell_mem nodes head
  obtain ⟨n, -, link, -⟩ := ring.linked.mirror_next inside
  obtain ⟨after, run, cleaned⟩ := cleanupLoop_spec ring link
  refine ⟨after, fun fuel enough => ?_, cleaned⟩
  rw [doCleanupList, readNext_eq (ring.live head List.mem_cons_self) ring.linked.next_start]
  simp only [Option.bind_eq_bind, Option.bind_some]
  rw [readNext_eq (ring.live _ inside) link]
  exact run fuel enough

/-- The nodes are in the ring behind the head. -/
theorem buildList_spec (distinct : (head :: nodes).Nodup)
    (live : ∀ a ∈ head :: nodes, a ∉ heap.freed) :
    ∃ built, buildList heap head nodes = some built ∧ Ring built head nodes ∧
      built.freed = heap.freed := by
  obtain ⟨start, init, startRing, startFreed⟩ := initListHead_spec (live head List.mem_cons_self)
  obtain ⟨built, adds, ring, freed⟩ := addAll_spec startRing distinct
    (fun a mem => startFreed ▸ live a (List.mem_cons_of_mem _ mem))
  refine ⟨built, ?_, ring, freed.trans startFreed⟩
  rw [buildList, init]
  exact adds

end Operations

/-- The list over all its operations. A read of a poisoned or freed link gives no result, and so does
a write to a freed node. -/
theorem listHead_integrity (heap : ListHeap) (head : Nat) (nodes : List Nat)
    (distinct : (head :: nodes).Nodup) (live : ∀ a ∈ head :: nodes, a ∉ heap.freed) :
    ∃ built, buildList heap head nodes = some built ∧ built.freed = heap.freed ∧
      (∀ fuel > nodes.length, listForEach fuel built head = some nodes) ∧
      Mirrored built (head :: nodes) ∧
      ∃ cleaned, (∀ fuel > nodes.length, doCleanupList fuel built head = some cleaned) ∧
        Cleaned built cleaned head nodes := by
  obtain ⟨built, build, ring, freed⟩ := buildList_spec distinct live
  exact ⟨built, build, freed, listForEach_spec ring, mirrored ring, doCleanupList_spec ring⟩

/-- Uninitialized links, and nothing is freed. -/
def emptyHeap : ListHeap := ⟨fun _ => .address 0, fun _ => .address 0, []⟩

theorem threeNodes_integrity :
    ∃ built, buildList emptyHeap 8 [24, 16, 32] = some built ∧ built.freed = [] ∧
      (∀ fuel > 3, listForEach fuel built 8 = some [24, 16, 32]) ∧
      Mirrored built [8, 24, 16, 32] ∧
      ∃ cleaned, (∀ fuel > 3, doCleanupList fuel built 8 = some cleaned) ∧
        Cleaned built cleaned 8 [24, 16, 32] :=
  listHead_integrity emptyHeap 8 [24, 16, 32] (by decide) (by decide)

end BandwidthLimiter
