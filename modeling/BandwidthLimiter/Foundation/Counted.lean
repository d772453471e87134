import Mathlib.Data.Finmap
import Mathlib.Data.Finset.Card
import Mathlib.Tactic.Common

namespace Foundation

variable {K V : Type} [DecidableEq K]

section Maps

variable {T : Type} {key other : K} {value : T} {map : Finmap fun _ : K => T}

/-- An insertion changes the lookup of its key alone. -/
theorem lookup_insert_ite :
    (map.insert key value).lookup other = if other = key then some value else map.lookup other := by
  split
  · rename_i same
    rw [same, Finmap.lookup_insert]
  · rename_i different
    exact Finmap.lookup_insert_of_ne _ different

theorem lookup_erase_ite :
    (map.erase key).lookup other = if other = key then none else map.lookup other := by
  split
  · rename_i same
    rw [same, Finmap.lookup_erase]
  · rename_i different
    exact Finmap.lookup_erase_ne different

end Maps

/-- The children that name a root. -/
def children (conns : Finmap fun _ : K => K) (root : K) : Finset K :=
  conns.keys.filter fun child => conns.lookup child = some root

/-- Two finite maps: a root has a value and a counter, and a child names its root. Every child has a
root, and the counter is the number of the children. -/
structure Counted (K V : Type) [DecidableEq K] where
  roots : Finmap fun _ : K => V × Nat
  conns : Finmap fun _ : K => K
  rooted : ∀ child root, conns.lookup child = some root → root ∈ roots
  counted : ∀ root value count, roots.lookup root = some (value, count) →
    count = (children conns root).card

section Children

variable {conns : Finmap fun _ : K => K} {child root key : K}

theorem mem_children : child ∈ children conns root ↔ conns.lookup child = some root := by
  rw [children, Finset.mem_filter, Finmap.mem_keys, Finmap.mem_iff]
  exact ⟨And.right, fun named => ⟨⟨root, named⟩, named⟩⟩

/-- A new child counts for its root alone. -/
theorem card_children_insert (fresh : conns.lookup child = none) (key : K) :
    (children (conns.insert child root) key).card =
      (children conns key).card + if key = root then 1 else 0 := by
  split
  · rename_i same
    have grown : children (conns.insert child root) key = insert child (children conns key) := by
      ext other
      rw [mem_children, Finset.mem_insert, mem_children, lookup_insert_ite]
      split <;> simp_all
    rw [grown, Finset.card_insert_of_notMem (by simp [mem_children, fresh])]
  · rename_i different
    have same : children (conns.insert child root) key = children conns key := by
      ext other
      rw [mem_children, mem_children, lookup_insert_ite]
      split
      · rename_i new
        rw [new, fresh]
        simp [Ne.symm different]
      · rfl
    rw [same, Nat.add_zero]

/-- A removed child counted for its root alone. -/
theorem card_children_erase (named : conns.lookup child = some root) (key : K) :
    (children (conns.erase child) key).card + (if key = root then 1 else 0) =
      (children conns key).card := by
  have shrunk : children (conns.erase child) key = (children conns key).erase child := by
    ext other
    rw [mem_children, Finset.mem_erase, mem_children, lookup_erase_ite]
    split <;> simp_all
  rw [shrunk]
  split
  · rename_i same
    exact Finset.card_erase_add_one (mem_children.mpr (same ▸ named))
  · rename_i different
    rw [Finset.erase_eq_of_notMem, Nat.add_zero]
    rw [mem_children, named]
    exact fun same => different (Option.some.inj same).symm

end Children

namespace Counted

variable {store : Counted K V} {child root key : K} {value : V} {count : Nat}

/-- The store without roots and children. -/
def empty : Counted K V where
  roots := ∅
  conns := ∅
  rooted := by simp
  counted := by simp

/-- No child names a missing root. -/
theorem card_children_of_absent (absent : store.roots.lookup root = none) :
    (children store.conns root).card = 0 := by
  rw [Finset.card_eq_zero, Finset.eq_empty_iff_forall_notMem]
  intro child mem
  have present := store.rooted child root (mem_children.mp mem)
  exact Finmap.lookup_eq_none.mp absent present

/-- The store with a new root. -/
def withRoot (store : Counted K V) (root : K) (value : V)
    (absent : store.roots.lookup root = none) : Counted K V where
  roots := store.roots.insert root (value, 0)
  conns := store.conns
  rooted child other named := Finmap.mem_insert.mpr (.inr (store.rooted child other named))
  counted := by
    intro key other count found
    rw [lookup_insert_ite] at found
    split at found
    · rename_i same
      obtain ⟨-, rfl⟩ := Prod.mk.inj (Option.some.inj found)
      rw [same, card_children_of_absent absent]
    · exact store.counted key other count found

/-- The store with a new child of a root. -/
def withChild (store : Counted K V) (root child : K) (value : V) (count : Nat)
    (found : store.roots.lookup root = some (value, count))
    (fresh : store.conns.lookup child = none) : Counted K V where
  roots := store.roots.insert root (value, count + 1)
  conns := store.conns.insert child root
  rooted := by
    intro other top named
    rw [lookup_insert_ite] at named
    rw [Finmap.mem_insert]
    split at named
    · exact .inl (Option.some.inj named).symm
    · exact .inr (store.rooted other top named)
  counted := by
    intro key other number present
    rw [lookup_insert_ite] at present
    rw [card_children_insert fresh]
    split at present
    · rename_i same
      obtain ⟨-, rfl⟩ := Prod.mk.inj (Option.some.inj present)
      rw [if_pos same, same, store.counted root value count found]
    · rename_i different
      rw [if_neg different, store.counted key other number present]
      rfl

/-- The store without a child; the root goes with its last child. -/
def withoutChild (store : Counted K V) (root child : K) (value : V) (count : Nat)
    (found : store.roots.lookup root = some (value, count))
    (named : store.conns.lookup child = some root) : Counted K V where
  roots := if count = 1 then store.roots.erase root
    else store.roots.insert root (value, count - 1)
  conns := store.conns.erase child
  rooted := by
    intro other top kept
    have before := store.counted root value count found
    have after := card_children_erase named root
    have member := mem_children.mpr kept
    rw [lookup_erase_ite] at kept
    split at kept
    · cases kept
    · have present := store.rooted other top kept
      by_cases same : top = root
      · subst same
        have several := Finset.card_pos.mpr ⟨other, member⟩
        rw [if_neg (by simp at after; omega)]
        exact Finmap.mem_insert.mpr (.inl rfl)
      · split
        · exact Finmap.mem_erase.mpr ⟨same, present⟩
        · exact Finmap.mem_insert.mpr (.inr present)
  counted := by
    intro key other number present
    have before := store.counted root value count found
    have after := card_children_erase named key
    by_cases same : key = root
    · subst same
      rw [if_pos rfl] at after
      split at present
      · rw [Finmap.lookup_erase] at present
        cases present
      · rw [Finmap.lookup_insert] at present
        obtain ⟨-, rfl⟩ := Prod.mk.inj (Option.some.inj present)
        omega
    · rw [if_neg same, Nat.add_zero] at after
      rw [after]
      apply store.counted key other number
      split at present
      · rwa [lookup_erase_ite, if_neg same] at present
      · rwa [lookup_insert_ite, if_neg same] at present

/-- A new root starts without children; an old root is refused. -/
def create (store : Counted K V) (root : K) (value : V) : Counted K V × Bool :=
  if absent : store.roots.lookup root = none then (store.withRoot root value absent, true)
  else (store, false)

/-- A new child counts for its root; a missing root or an old child is refused. -/
def link (store : Counted K V) (root child : K) : Counted K V × Bool :=
  match found : store.roots.lookup root, fresh : store.conns.lookup child with
  | some (value, count), none => (store.withChild root child value count found fresh, true)
  | _, _ => (store, false)

/-- A removed child no longer counts for its root; an absent child changes nothing. -/
def unlink (store : Counted K V) (child : K) : Counted K V :=
  match named : store.conns.lookup child with
  | none => store
  | some root =>
      match found : store.roots.lookup root with
      | none => store
      | some (value, count) => store.withoutChild root child value count found named

section Branches

theorem create_new (absent : store.roots.lookup root = none) :
    store.create root value = (store.withRoot root value absent, true) := dif_pos absent

theorem create_old (present : root ∈ store.roots) : store.create root value = (store, false) :=
  dif_neg fun absent => Finmap.lookup_eq_none.mp absent present

theorem link_new (found : store.roots.lookup root = some (value, count))
    (fresh : store.conns.lookup child = none) :
    store.link root child = (store.withChild root child value count found fresh, true) := by
  unfold link
  split
  · rename_i other number present free
    obtain ⟨rfl, rfl⟩ := Prod.mk.inj (Option.some.inj (present.symm.trans found))
    rfl
  · rename_i refused
    exact (refused _ _ found fresh).elim

theorem link_unknown (absent : store.roots.lookup root = none) :
    store.link root child = (store, false) := by
  unfold link
  split
  · rename_i present _
    cases absent.symm.trans present
  · rfl

theorem link_old (present : child ∈ store.conns) : store.link root child = (store, false) := by
  unfold link
  split
  · rename_i fresh
    exact absurd present (Finmap.lookup_eq_none.mp fresh)
  · rfl

theorem unlink_absent (absent : store.conns.lookup child = none) : store.unlink child = store := by
  unfold unlink
  split
  · rfl
  · rename_i named
    cases absent.symm.trans named

theorem unlink_present (named : store.conns.lookup child = some root)
    (found : store.roots.lookup root = some (value, count)) :
    store.unlink child = store.withoutChild root child value count found named := by
  unfold unlink
  split
  · rename_i absent
    cases absent.symm.trans named
  · rename_i top other
    obtain rfl := Option.some.inj (other.symm.trans named)
    split
    · rename_i missing
      cases missing.symm.trans found
    · rename_i present
      obtain ⟨rfl, rfl⟩ := Prod.mk.inj (Option.some.inj (present.symm.trans found))
      rfl

end Branches

/-- The root of a child has a value and at least one child. -/
theorem root_of (named : store.conns.lookup child = some root) :
    ∃ value count, store.roots.lookup root = some (value, count) ∧ 1 ≤ count := by
  obtain ⟨⟨value, count⟩, found⟩ := Finmap.mem_iff.mp (store.rooted child root named)
  have counted := store.counted root value count found
  have positive := Finset.card_pos.mpr ⟨child, mem_children.mpr named⟩
  exact ⟨value, count, found, by omega⟩

/-- The child names the root, and no other child does. -/
def Last (store : Counted K V) (child root : K) : Prop :=
  store.conns.lookup child = some root ∧
    ∀ other, store.conns.lookup other = some root → other = child

/-- The counter of a root is one exactly when the child is its last one. -/
theorem last_iff (named : store.conns.lookup child = some root)
    (found : store.roots.lookup root = some (value, count)) :
    store.Last child root ↔ count = 1 := by
  rw [store.counted root value count found]
  constructor
  · rintro ⟨-, only⟩
    refine Finset.card_eq_one.mpr ⟨child, ?_⟩
    ext other
    rw [mem_children, Finset.mem_singleton]
    exact ⟨only other, fun same => same ▸ named⟩
  · intro single
    refine ⟨named, fun other member => ?_⟩
    exact Finset.card_le_one.mp single.le other (mem_children.mpr member) child
      (mem_children.mpr named)

/-- The value of a root without its counter. -/
def valueOf (store : Counted K V) (root : K) : Option V := (store.roots.lookup root).map Prod.fst

@[simp] theorem valueOf_empty : (empty : Counted K V).valueOf root = none := rfl

theorem valueOf_eq_none : store.valueOf root = none ↔ store.roots.lookup root = none :=
  Option.map_eq_none_iff

section Values

/-- A new root gets its value, and every present root keeps its value. -/
theorem valueOf_create : (store.create key value).1.valueOf root =
    if root = key then some ((store.valueOf key).getD value) else store.valueOf root := by
  cases absent : store.roots.lookup key with
  | none =>
      rw [create_new absent, valueOf, withRoot, lookup_insert_ite, valueOf_eq_none.mpr absent]
      split <;> rfl
  | some entry =>
      have present : store.valueOf key = some entry.1 := by rw [valueOf, absent, Option.map_some]
      rw [create_old (Finmap.mem_of_lookup_eq_some absent), present]
      split
      · rename_i same
        rw [same, present]
        rfl
      · rfl

theorem valueOf_link : (store.link key child).1.valueOf root = store.valueOf root := by
  cases found : store.roots.lookup key with
  | none => rw [link_unknown found]
  | some entry =>
      cases fresh : store.conns.lookup child with
      | some other => rw [link_old (Finmap.mem_of_lookup_eq_some fresh)]
      | none =>
          rw [link_new found fresh, valueOf, withChild, lookup_insert_ite]
          split
          · rename_i same
            rw [same, valueOf, found]
            rfl
          · rfl

/-- A removed child takes its root with it exactly when it is the last child. -/
theorem valueOf_unlink : (store.unlink child).valueOf root = some value ↔
    ¬store.Last child root ∧ store.valueOf root = some value := by
  cases named : store.conns.lookup child with
  | none =>
      rw [unlink_absent named]
      simp [Last, named]
  | some top =>
      obtain ⟨kept, count, found, -⟩ := root_of named
      rw [unlink_present named found, valueOf, withoutChild]
      dsimp only
      by_cases same : root = top
      · subst same
        rw [last_iff named found, valueOf, found]
        split
        · rename_i single
          simp [single]
        · rename_i several
          simp [several]
      · have other : ¬store.Last child root := fun last =>
          same (Option.some.inj (last.1.symm.trans named))
        split <;> simp [same, other, valueOf]

theorem valueOf_unlink_eq_none (present : store.valueOf root = some value) :
    (store.unlink child).valueOf root = none ↔ store.Last child root := by
  constructor
  · intro gone
    by_contra kept
    cases gone.symm.trans (valueOf_unlink.mpr ⟨kept, present⟩)
  · intro last
    apply Option.eq_none_iff_forall_ne_some.mpr
    intro other found
    exact (valueOf_unlink.mp found).1 last

end Values

end Counted

end Foundation
