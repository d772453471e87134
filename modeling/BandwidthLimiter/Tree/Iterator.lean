import BandwidthLimiter.Tree.Neighbour

namespace BandwidthLimiter
open Foundation

variable {K V : Type}

/-- The rest of the loop `for ( ss = start(tree); ss != NULL; ss = next(tree) )`. -/
def traverseLoop : Nat → RedBlackTreeStruct K V → Option (Pointer Nat) →
    Option (List (Pointer Nat) × RedBlackTreeStruct K V)
  | 0, _, _ => none
  | _ + 1, tree, none => some ([], tree)
  | fuel + 1, tree, some ss => do
      let (tree, following) ← next tree
      let (nodes, tree) ← traverseLoop fuel tree following
      return (ss :: nodes, tree)

/-- The nodes that the loop receives, and the tree that it leaves. -/
def traverse (fuel : Nat) (tree : RedBlackTreeStruct K V) :
    Option (List (Pointer Nat) × RedBlackTreeStruct K V) := do
  let (tree, ss) ← start tree
  traverseLoop fuel tree ss

variable {tree : RedBlackTreeStruct K V} {shape : ColorTree Nat}

section Climb

variable {path : Path Nat} {red : Bool} {x fuel : Nat} {left right : ColorTree Nat}

/-- From a visited node, the climb stops at the first node after it. -/
theorem climbVisited_stop (stored : Stored tree.toLinks path (.node red left x right))
    (visited : tree.visited (.node x) = true)
    (behind : ∀ a ∈ path.before, tree.visited (.node a) = true) {z : Nat} {rest : List Nat}
    (following : path.after = z :: rest) (ahead : tree.visited (.node z) = false)
    (enough : path.length < fuel) :
    climbVisited tree fuel (.node x) = some (.node z, false) := by
  induction path generalizing fuel red x left right with
  | nil => cases following
  | cons frame above ih =>
      obtain ⟨fuel, rfl, spare⟩ := exists_fuel enough
      have up : tree.parent (.node x) = .node frame.address := stored.holds.2.1
      have joined := (Stored.focus ..).mp stored
      rw [climbVisited, if_pos visited, up, if_neg (by simp)]
      obtain ⟨side, color, a, sibling⟩ := frame
      cases side with
      | left =>
          obtain ⟨rfl, -⟩ : a = z ∧ _ := by simpa [Path.after] using following
          obtain ⟨fuel, rfl, -⟩ := exists_fuel spare
          simp [climbVisited, ahead]
      | right =>
          simp only [Path.before, List.mem_append, List.mem_singleton] at behind
          exact ih joined (behind a (.inr (.inr rfl))) (fun b mem => behind b (.inl mem)) following
            spare

/-- When everything above is visited, the climb ends at the top. -/
theorem climbVisited_top (stored : Stored tree.toLinks path (.node red left x right))
    (visited : tree.visited (.node x) = true)
    (above : ∀ a ∈ path.addresses, tree.visited (.node a) = true) (enough : path.length < fuel) :
    climbVisited tree fuel (.node x) = some ((path.plug (.node red left x right)).top, true) := by
  induction path generalizing fuel red x left right with
  | nil =>
      obtain ⟨fuel, rfl, -⟩ := exists_fuel enough
      have up : tree.parent (.node x) = .root := stored.holds.2.1
      simp [climbVisited, visited, up, Path.plug]
  | cons frame rest ih =>
      obtain ⟨fuel, rfl, spare⟩ := exists_fuel enough
      have up : tree.parent (.node x) = .node frame.address := stored.holds.2.1
      have joined := (Stored.focus ..).mp stored
      simp only [Path.addresses, List.mem_cons, List.mem_append] at above
      rw [climbVisited, if_pos visited, up, if_neg (by simp)]
      obtain ⟨side, color, a, sibling⟩ := frame
      cases side with
      | left | right =>
          exact ih joined (above a (.inl rfl)) (fun b mem => above b (.inr (.inr mem)))
            spare

end Climb

/-- The iterator moves to a node and marks it. -/
def moveTo (tree : RedBlackTreeStruct K V) (point : Pointer Nat) : RedBlackTreeStruct K V :=
  { tree with
    currentTraversePoint := some point
    visited := fun p => if p = point then true else tree.visited p }

/-- The iterator stands at a node; exactly the nodes up to it are marked. -/
structure Visiting (tree : RedBlackTreeStruct K V) (shape : ColorTree Nat) (seen : List Nat)
    (current : Nat) (rest : List Nat) : Prop where
  stored : Stored tree.toLinks [] shape
  size : shape.size < tree.loopBound
  order : shape.inorder = seen ++ current :: rest
  point : tree.currentTraversePoint = some (.node current)
  marked : ∀ a ∈ seen, tree.visited (.node a) = true
  now : tree.visited (.node current) = true
  ahead : ∀ a ∈ rest, tree.visited (.node a) = false

/-- After the last node, the iterator stands at a node of the tree, and all nodes are marked. -/
structure Exhausted (tree : RedBlackTreeStruct K V) (shape : ColorTree Nat) (current : Nat) :
    Prop where
  stored : Stored tree.toLinks [] shape
  size : shape.size < tree.loopBound
  inside : current ∈ shape.inorder
  point : tree.currentTraversePoint = some (.node current)
  marked : ∀ a ∈ shape.inorder, tree.visited (.node a) = true

section Step

variable {seen rest : List Nat} {current z : Nat}

/-- The next call finds the first unmarked node: below to the right, or else above. -/
theorem Visiting.next_eq (visiting : Visiting tree shape seen current (z :: rest)) :
    next tree = some (moveTo tree (.node z), some (.node z)) := by
  obtain ⟨path, red, left, right, plugged, front, back⟩ :=
    Path.exists_plug_between visiting.stored.nodup visiting.order
  have size := visiting.size
  have high := path.length_le_size (.node red left current right)
  have low := path.size_le_size (.node red left current right)
  rw [plugged] at high low
  have stored : Stored tree.toLinks path (.node red left current right) :=
    Stored.atFocus (plugged ▸ visiting.stored)
  have turned : Stored tree.toLinks path (.join .right red current right left) := stored
  have link : tree.child .right (.node current) = right.top := turned.near_eq
  simp only [next, visiting.point, Option.bind_eq_bind, Option.bind_some, link, visiting.now,
    if_true]
  by_cases below : right = .nil
  · subst below
    have following : path.after = z :: rest := by simpa [ColorTree.inorder] using back.symm
    have climbed := climbVisited_stop stored visiting.now
      (fun a mem => visiting.marked a (by rw [front]; exact List.mem_append_left _ mem)) following
      (visiting.ahead z List.mem_cons_self) (show path.length < tree.loopBound by omega)
    simp [climbed, moveTo]
  · have short := ColorTree.height_le_size (.node red left current right)
    simp only [ColorTree.height] at short
    have descended : outermost .left tree.toLinks tree.loopBound right.top = _ :=
      outermost_end turned.focusNear (show right.height < tree.loopBound by omega)
    rw [endNode_front below back, nodeOrNil_some] at descended
    obtain ⟨shade, y, inner, outer, rfl⟩ := ColorTree.exists_join .left below
    have unmarked : tree.visited (.node y) = false :=
      visiting.ahead y (by rw [back]; exact List.mem_append_left _ (by simp))
    rw [ColorTree.top_join] at descended ⊢
    simp [unmarked, descended, moveTo]

theorem Visiting.next_spec (visiting : Visiting tree shape seen current (z :: rest)) :
    ∃ later, next tree = some (later, some (.node z)) ∧
      Visiting later shape (seen ++ [current]) z rest := by
  refine ⟨_, visiting.next_eq, visiting.stored, visiting.size, by simp [visiting.order], rfl, ?_,
    if_pos rfl, ?_⟩
  · intro a mem
    have marked : tree.visited (.node a) = true := by
      rcases List.mem_append.mp mem with before | last
      · exact visiting.marked a before
      · exact List.mem_singleton.mp last ▸ visiting.now
    simp [moveTo, marked]
  · intro a mem
    have nodup := visiting.stored.nodup
    rw [visiting.order] at nodup
    have absent := (List.nodup_cons.mp (List.nodup_cons.mp (List.nodup_append.mp nodup).2.1).2).1
    have different : a ≠ z := fun same => absent (same ▸ mem)
    simpa [moveTo, different] using visiting.ahead a (List.mem_cons_of_mem _ mem)

/-- After the last node, a call moves the iterator to the top and returns NULL. -/
theorem Exhausted.next_eq (exhausted : Exhausted tree shape current) :
    next tree = some ({ tree with currentTraversePoint := some shape.top }, none) := by
  obtain ⟨path, red, left, right, plugged⟩ := Path.exists_plug [] exhausted.inside
  simp only [Path.plug] at plugged
  subst plugged
  have size := exhausted.size
  have high := path.length_le_size (.node red left current right)
  have stored : Stored tree.toLinks path (.node red left current right) := exhausted.stored.atFocus
  have marked := exhausted.marked
  simp only [(path.plug_perm _).mem_iff, List.mem_append, ColorTree.inorder, List.mem_cons] at marked
  have link : tree.child .right (.node current) = right.top := stored.holds.2.2.2.2.1
  have now := marked current (.inl (.inr (.inl rfl)))
  have climbed := climbVisited_top stored now (fun a mem => marked a (.inr mem))
    (show path.length < tree.loopBound by omega)
  have never : ¬(right.top ≠ .nil ∧ (!tree.visited right.top) = true) := by
    rintro ⟨proper, unmarked⟩
    cases right with
    | nil => exact proper rfl
    | node shade inner y outer =>
        rw [ColorTree.top_node, marked y (.inl (.inr (.inr (by simp [ColorTree.inorder]))))] at unmarked
        cases unmarked
  simp only [next, exhausted.point, Option.bind_eq_bind, Option.bind_some, link, if_neg never, now,
    if_true, climbed]
  rfl

theorem Exhausted.next_spec (exhausted : Exhausted tree shape current) :
    ∃ later, next tree = some (later, none) ∧ next later = some (later, none) := by
  have inside := exhausted.inside
  cases shape with
  | nil => cases inside
  | node red left top right =>
      have later : Exhausted { tree with currentTraversePoint := some (.node top) }
          (.node red left top right) top :=
        ⟨exhausted.stored, exhausted.size, by simp [ColorTree.inorder], rfl, exhausted.marked⟩
      exact ⟨_, exhausted.next_eq, later.next_eq⟩

theorem Visiting.exhausted (visiting : Visiting tree shape seen current []) :
    Exhausted tree shape current := by
  refine ⟨visiting.stored, visiting.size, by simp [visiting.order], visiting.point, ?_⟩
  intro a mem
  rw [visiting.order, List.mem_append, List.mem_singleton] at mem
  rcases mem with before | rfl
  · exact visiting.marked a before
  · exact visiting.now

/-- The loop receives the nodes that are not marked yet, in order, and then NULL. -/
theorem traverseLoop_spec (visiting : Visiting tree shape seen current rest) :
    ∃ last, (∀ fuel, rest.length + 1 < fuel → traverseLoop fuel tree (some (.node current)) =
        some ((current :: rest).map .node, last)) ∧ next last = some (last, none) := by
  induction rest generalizing tree seen current with
  | nil =>
      obtain ⟨last, ended, again⟩ := visiting.exhausted.next_spec
      refine ⟨last, ?_, again⟩
      intro fuel enough
      obtain ⟨fuel, rfl⟩ := Nat.exists_eq_add_of_le' (show 2 ≤ fuel from enough)
      simp [traverseLoop, ended]
  | cons z rest ih =>
      obtain ⟨later, step, kept⟩ := visiting.next_spec
      obtain ⟨last, run, again⟩ := ih kept
      refine ⟨last, ?_, again⟩
      intro fuel enough
      obtain ⟨fuel, rfl, spare⟩ := exists_fuel enough
      simp [traverseLoop, step, run fuel spare]

end Step

section Start

variable {comparison : Comparison K}

/-- On an unmarked tree, the first call finds the first node in order; an empty tree has none. -/
theorem start_spec (wellFormed : WellFormed comparison tree shape)
    (unmarked : ∀ p, tree.visited p = false) :
    (shape = .nil ∧ ∃ later, start tree = some (later, none)) ∨
      ∃ later z rest, start tree = some (later, some (.node z)) ∧ Visiting later shape [] z rest := by
  have stored := wellFormed.stored
  have descended : outermost .left tree.toLinks _ _ = _ := outermost_end stored wellFormed.height_lt
  rw [← wellFormed.top_eq] at descended
  cases order : shape.inorder with
  | nil =>
      rw [order] at descended
      refine .inl ⟨?_, { tree with currentTraversePoint := some .nil }, ?_⟩
      · cases shape with
        | nil => rfl
        | node => simp [ColorTree.inorder] at order
      · simp [start, descended, endNode]
  | cons z rest =>
      rw [order] at descended
      refine .inr ⟨moveTo tree (.node z), z, rest, ?_, stored, wellFormed.size_lt, order, rfl, by simp,
        if_pos rfl, ?_⟩
      · simp [start, descended, endNode, moveTo]
      · intro a mem
        have nodup := wellFormed.nodup
        rw [order] at nodup
        have different : a ≠ z := fun same => (List.nodup_cons.mp nodup).1 (same ▸ mem)
        simp [moveTo, different, unmarked]

/-- Neither an insertion nor a deletion marks a node. -/
theorem TreeStep.unmarked {next : RedBlackTreeStruct K V} {event : TreeEvent K V}
    (kept : (∃ shape, WellFormed comparison tree shape) ∧ ∀ p, tree.visited p = false)
    (taken : TreeStep comparison.compare tree event next) :
    (∃ shape, WellFormed comparison next shape) ∧ ∀ p, next.visited p = false := by
  refine ⟨taken.wellFormed kept.1, ?_⟩
  obtain ⟨⟨shape, wellFormed⟩, unmarked⟩ := kept
  cases taken with
  | insert done =>
      obtain ⟨result, nextShape, run, -, inserted⟩ := rbTreeInsert_spec wellFormed _ _
      obtain ⟨rfl, -⟩ := Prod.mk.inj (Option.some.inj (run.symm.trans done))
      intro p
      rw [inserted.visited, unmarked, ite_self]
  | delete inside done =>
      obtain ⟨result, nextShape, run, -, deleted⟩ :=
        rbDelete_spec wellFormed ((wellFormed.stored.inTree_iff _).mp inside)
      obtain ⟨rfl, -⟩ := Prod.mk.inj (Option.some.inj (run.symm.trans done))
      intro p
      rw [deleted.visited, unmarked]
  | query => exact unmarked

/-- The loop over a tree that a client built receives every node once and in order, and then NULL
as often as it asks. -/
theorem treeRun_traverse {events : List (TreeEvent K V)}
    (run : Run (TreeStep comparison.compare) (rbTreeCreate K V) events tree) :
    ∃ nodes, Neighbours tree nodes ∧
      ∃ last, (∀ fuel, nodes.length < fuel → traverse fuel tree = some (nodes, last)) ∧
        (nodes = [] → ∃ later, start tree = some (later, none)) ∧
        (nodes ≠ [] → next last = some (last, none)) := by
  obtain ⟨⟨shape, wellFormed⟩, unmarked⟩ := run.invariant
    (fun tree => (∃ shape, WellFormed comparison tree shape) ∧ ∀ p, tree.visited p = false)
    ⟨⟨.nil, rbTreeCreate_wellFormed comparison⟩, fun _ => rfl⟩ fun _ _ _ kept taken =>
      taken.unmarked kept
  refine ⟨_, wellFormed.allNeighbours, ?_⟩
  rcases start_spec wellFormed unmarked with ⟨rfl, later, started⟩ | ⟨later, z, rest, started, visiting⟩
  · refine ⟨later, ?_, fun _ => ⟨later, started⟩, fun proper => absurd rfl proper⟩
    intro fuel enough
    obtain ⟨fuel, rfl, -⟩ := exists_fuel enough
    simp [traverse, started, traverseLoop, ColorTree.inorder]
  · obtain ⟨last, looped, again⟩ := traverseLoop_spec visiting
    have order : shape.inorder = z :: rest := visiting.order
    rw [order]
    refine ⟨last, ?_, by simp, fun _ => again⟩
    intro fuel enough
    simp [traverse, started, looped fuel (by simpa using enough)]

end Start

theorem equalKeys_traverse : ∃ last, traverse 3 equalKeys = some ([.node 0, .node 1], last) ∧
    next last = some (last, none) := by
  obtain ⟨nodes, neighbours, last, looped, -, again⟩ := treeRun_traverse equalKeys_run
  have printed : rbTreePrint equalKeys = some [.node 0, .node 1] := rfl
  obtain rfl := Option.some.inj (neighbours.printed.symm.trans printed)
  exact ⟨last, looped 3 (by decide), again nofun⟩

end BandwidthLimiter
