import BandwidthLimiter.Tree.Iterator

namespace BandwidthLimiter
open Foundation

variable {K V : Type}

/-- Complete traversals, one after the other. -/
def traversals (fuel : Nat) : Nat → RedBlackTreeStruct K V →
    Option (List (List (Pointer Nat)) × RedBlackTreeStruct K V)
  | 0, tree => some ([], tree)
  | repeats + 1, tree => do
      let (nodes, tree) ← traverse fuel tree
      let (others, tree) ← traversals fuel repeats tree
      return (nodes :: others, tree)

variable {tree later last : RedBlackTreeStruct K V} {shape : ColorTree Nat} {fuel : Nat}
  {nodes : List (Pointer Nat)}

section Marks

/-- The traversal point and the marks are all that has changed, and no mark is lost. -/
structure MarksKept (tree later : RedBlackTreeStruct K V) : Prop where
  links : later.toLinks = tree.toLinks
  fresh : later.fresh = tree.fresh
  marked : ∀ p, tree.visited p = true → later.visited p = true

theorem MarksKept.trans (first : MarksKept tree later) (second : MarksKept later last) :
    MarksKept tree last :=
  ⟨second.links.trans first.links, second.fresh.trans first.fresh, fun p marked => second.marked p (first.marked p marked)⟩

theorem MarksKept.moveTo (tree : RedBlackTreeStruct K V) (point : Pointer Nat) :
    MarksKept tree (moveTo tree point) where
  links := rfl
  fresh := rfl
  marked p marked := by simp [BandwidthLimiter.moveTo, marked]

theorem start_kept {ss : Option (Pointer Nat)} (run : start tree = some (later, ss)) :
    MarksKept tree later ∧ ∀ p, ss = some p → later.visited p = true := by
  obtain ⟨point, descended, rest⟩ := Option.bind_eq_some_iff.mp run
  split at rest
  · obtain ⟨rfl, rfl⟩ := Prod.mk.inj (Option.some.inj rest)
    exact ⟨⟨rfl, rfl, fun _ => id⟩, nofun⟩
  · obtain ⟨rfl, rfl⟩ := Prod.mk.inj (Option.some.inj rest)
    exact ⟨MarksKept.moveTo tree point, fun p same => if_pos (Option.some.inj same).symm⟩

theorem next_kept {ss : Option (Pointer Nat)} (run : next tree = some (later, ss)) :
    MarksKept tree later ∧ ∀ p, ss = some p → later.visited p = true := by
  have moved (point : Pointer Nat) (same : some (moveTo tree point, some point) = some (later, ss)) :
      MarksKept tree later ∧ ∀ p, ss = some p → later.visited p = true := by
    obtain ⟨rfl, rfl⟩ := Prod.mk.inj (Option.some.inj same)
    exact ⟨MarksKept.moveTo tree point, fun p same => if_pos (Option.some.inj same).symm⟩
  obtain ⟨current, -, rest⟩ := Option.bind_eq_some_iff.mp run
  dsimp only at rest
  split at rest
  · obtain ⟨point, -, rest⟩ := Option.bind_eq_some_iff.mp rest
    exact moved point rest
  · split at rest
    · obtain ⟨⟨point, atTop⟩, -, rest⟩ := Option.bind_eq_some_iff.mp rest
      cases atTop with
      | true =>
          obtain ⟨rfl, rfl⟩ := Prod.mk.inj (Option.some.inj rest)
          exact ⟨⟨rfl, rfl, fun _ => id⟩, nofun⟩
      | false => exact moved point rest
    · exact moved current rest

/-- The loop marks the nodes that it receives. -/
theorem traverseLoop_kept {ss : Option (Pointer Nat)}
    (run : traverseLoop fuel tree ss = some (nodes, last))
    (now : ∀ p, ss = some p → tree.visited p = true) :
    MarksKept tree last ∧ ∀ p ∈ nodes, last.visited p = true := by
  induction fuel generalizing tree ss nodes with
  | zero => cases run
  | succ fuel ih =>
      cases ss with
      | none =>
          obtain ⟨rfl, rfl⟩ := Prod.mk.inj (Option.some.inj run)
          exact ⟨⟨rfl, rfl, fun _ => id⟩, nofun⟩
      | some ss =>
          obtain ⟨⟨middle, following⟩, step, rest⟩ := Option.bind_eq_some_iff.mp run
          obtain ⟨⟨others, ended⟩, looped, same⟩ := Option.bind_eq_some_iff.mp rest
          obtain ⟨rfl, rfl⟩ := Prod.mk.inj (Option.some.inj same)
          obtain ⟨moved, here⟩ := next_kept step
          obtain ⟨kept, seen⟩ := ih looped here
          refine ⟨moved.trans kept, fun p mem => ?_⟩
          rcases List.mem_cons.mp mem with rfl | mem
          · exact kept.marked p (moved.marked p (now p rfl))
          · exact seen p mem

theorem traverse_kept (run : traverse fuel tree = some (nodes, last)) :
    MarksKept tree last ∧ ∀ p ∈ nodes, last.visited p = true := by
  obtain ⟨⟨begun, ss⟩, started, looped⟩ := Option.bind_eq_some_iff.mp run
  obtain ⟨moved, here⟩ := start_kept started
  obtain ⟨kept, seen⟩ := traverseLoop_kept looped here
  exact ⟨moved.trans kept, seen⟩

end Marks

section Again

variable {comparison : Comparison K}

/-- Every node of the tree is marked. -/
structure Marked (tree : RedBlackTreeStruct K V) (shape : ColorTree Nat) : Prop where
  stored : Stored tree.toLinks [] shape
  size : shape.size < tree.loopBound
  marked : ∀ a ∈ shape.inorder, tree.visited (.node a) = true

theorem MarksKept.stored (kept : MarksKept tree later) (stored : Stored tree.toLinks [] shape)
    (size : shape.size < tree.loopBound) :
    Stored later.toLinks [] shape ∧ shape.size < later.loopBound := by
  have bound : later.loopBound = tree.loopBound := congrArg (· + 1) kept.fresh
  exact ⟨kept.links ▸ stored, bound ▸ size⟩

/-- On a marked tree, the loop receives the first node in order and then NULL. -/
theorem Marked.traverse_eq (marked : Marked tree shape) (enough : 1 < fuel) :
    ∃ last, traverse fuel tree = some ((shape.inorder.take 1).map .node, last) := by
  obtain ⟨fuel, rfl⟩ := Nat.exists_eq_add_of_le' (show 2 ≤ fuel from enough)
  have stored := marked.stored
  have descended : outermost .left tree.toLinks tree.loopBound shape.top = _ :=
    outermost_end stored (Nat.lt_of_le_of_lt shape.height_le_size marked.size)
  rw [← stored.holds.1] at descended
  cases order : shape.inorder with
  | nil =>
      rw [order] at descended
      simp [traverse, start, descended, endNode, traverseLoop]
  | cons z rest =>
      rw [order] at descended
      have started : start tree = some (moveTo tree (.node z), some (.node z)) := by
        simp [start, descended, endNode, moveTo]
      have exhausted : Exhausted (moveTo tree (.node z)) shape z :=
        ⟨stored, marked.size, by simp [order], rfl,
          fun a mem => (MarksKept.moveTo tree _).marked _ (marked.marked a mem)⟩
      simp [traverse, started, traverseLoop, exhausted.next_eq]

/-- Each of the following traversals of a marked tree receives the first node only. -/
theorem Marked.traversals_eq (marked : Marked tree shape) (enough : 1 < fuel) (repeats : Nat) :
    ∃ last, traversals fuel repeats tree =
      some (List.replicate repeats ((shape.inorder.take 1).map .node), last) := by
  induction repeats generalizing tree with
  | zero => exact ⟨tree, rfl⟩
  | succ repeats ih =>
      obtain ⟨later, first⟩ := marked.traverse_eq enough
      obtain ⟨kept, -⟩ := traverse_kept first
      obtain ⟨stored, size⟩ := kept.stored marked.stored marked.size
      obtain ⟨last, others⟩ :=
        ih ⟨stored, size, fun a mem => kept.marked _ (marked.marked a mem)⟩
      exact ⟨last, by simp [traversals, first, others, List.replicate_succ]⟩

/-- The iterator works once: the first traversal of a tree that a client built receives every node in
order, and each later traversal receives the first node only. -/
theorem treeRun_retraverse {events : List (TreeEvent K V)}
    (run : Run (TreeStep comparison.compare) (rbTreeCreate K V) events tree) :
    ∃ nodes, rbTreePrint tree = some nodes ∧
      ∀ repeats fuel, nodes.length < fuel → 1 < fuel → ∃ last,
        traversals fuel (repeats + 1) tree =
          some (nodes :: List.replicate repeats (nodes.take 1), last) := by
  obtain ⟨⟨shape, wellFormed⟩, unmarked⟩ := run.invariant
    (fun tree => (∃ shape, WellFormed comparison tree shape) ∧ ∀ p, tree.visited p = false)
    ⟨⟨.nil, rbTreeCreate_wellFormed comparison⟩, fun _ => rfl⟩ fun _ _ _ kept taken =>
      taken.unmarked kept
  refine ⟨_, wellFormed.allNeighbours.printed, fun repeats fuel enough more => ?_⟩
  rcases start_spec wellFormed unmarked with ⟨rfl, -⟩ | ⟨begun, z, rest, started, visiting⟩
  · have marked : Marked tree .nil := ⟨wellFormed.stored, wellFormed.size_lt, nofun⟩
    exact marked.traversals_eq more (repeats + 1)
  · have order : shape.inorder = z :: rest := visiting.order
    obtain ⟨later, looped, -⟩ := traverseLoop_spec visiting
    have first : traverse fuel tree = some (shape.inorder.map .node, later) := by
      rw [order] at enough ⊢
      simp [traverse, started, looped fuel (by simpa using enough)]
    obtain ⟨kept, seen⟩ := traverse_kept first
    obtain ⟨stored, size⟩ := kept.stored wellFormed.stored wellFormed.size_lt
    have marked : Marked later shape :=
      ⟨stored, size, fun a mem => seen _ (List.mem_map_of_mem mem)⟩
    obtain ⟨last, others⟩ := marked.traversals_eq more repeats
    exact ⟨last, by simp [traversals, first, others, List.map_take]⟩

theorem equalKeys_retraverse : ∃ last,
    traversals 3 3 equalKeys = some ([[.node 0, .node 1], [.node 0], [.node 0]], last) := by
  obtain ⟨nodes, shown, looped⟩ := treeRun_retraverse equalKeys_run
  have printed : rbTreePrint equalKeys = some [.node 0, .node 1] := rfl
  obtain rfl := Option.some.inj (shown.symm.trans printed)
  exact looped 2 3 (by decide) (by decide)

end Again

end BandwidthLimiter
