import Mathlib.Data.List.Nodup
import Mathlib.Tactic.Common

namespace Foundation

section Release

variable {A : Type} [DecidableEq A] {live after rest blocks : List A} {block : A}

/-- Freeing a block that is not in use has no result. -/
def release (live : List A) (block : A) : Option (List A) :=
  if block ∈ live then some (live.erase block) else none

/-- Freeing one block after the other. -/
def releaseAll (live blocks : List A) : Option (List A) := blocks.foldlM release live

@[simp] theorem releaseAll_nil (live : List A) : releaseAll live [] = some live := rfl

theorem releaseAll_cons (live : List A) (block : A) (blocks : List A) :
    releaseAll live (block :: blocks) = (release live block).bind (releaseAll · blocks) := rfl

/-- An owner of a part of the blocks can free them, and the rest stays in use. -/
theorem releaseAll_perm (owned : live.Perm (blocks ++ rest)) :
    ∃ after, releaseAll live blocks = some after ∧ after.Perm rest := by
  induction blocks generalizing live with
  | nil => exact ⟨live, rfl, owned⟩
  | cons block blocks ih =>
      have inside : block ∈ live := owned.mem_iff.mpr List.mem_cons_self
      have smaller : (live.erase block).Perm (blocks ++ rest) := by
        have erased := owned.erase block
        rwa [List.cons_append, List.erase_cons_head] at erased
      obtain ⟨after, done, kept⟩ := ih smaller
      refine ⟨after, ?_, kept⟩
      rw [releaseAll_cons, release, if_pos inside]
      exact done

/-- The blocks that stay in use are still distinct. -/
theorem releaseAll_nodup (distinct : live.Nodup) (done : releaseAll live blocks = some after) :
    after.Nodup := by
  induction blocks generalizing live with
  | nil => exact Option.some.inj done ▸ distinct
  | cons block blocks ih =>
      obtain ⟨middle, first, rest⟩ := Option.bind_eq_some_iff.mp done
      unfold release at first
      split at first
      · exact ih (Option.some.inj first ▸ distinct.erase block) rest
      · cases first

end Release

/-- The next block lies behind all blocks in use. -/
def nextBlock (blocks : List Nat) : Nat := blocks.foldr (· + ·) 1

theorem lt_nextBlock {blocks : List Nat} {block : Nat} (mem : block ∈ blocks) :
    block < nextBlock blocks := by
  induction blocks with
  | nil => cases mem
  | cons head rest ih =>
      have positive (rest : List Nat) : 0 < nextBlock rest := by
        induction rest with
        | nil => exact Nat.one_pos
        | cons head rest ih => exact Nat.lt_add_left head ih
      rcases List.mem_cons.mp mem with rfl | inside
      · exact Nat.lt_add_of_pos_right (positive rest)
      · exact Nat.lt_add_left head (ih inside)

theorem nextBlock_fresh (blocks : List Nat) : nextBlock blocks ∉ blocks := fun mem =>
  Nat.lt_irrefl _ (lt_nextBlock mem)

end Foundation
