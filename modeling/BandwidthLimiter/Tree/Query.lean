import BandwidthLimiter.Tree.WellFormed

namespace BandwidthLimiter
open Foundation

variable {K V : Type} {comparison : Comparison K} {tree : RedBlackTreeStruct K V}
  {shape : ColorTree Nat}

/-- A finished search returns a node with an equal key, or shows that no key is equal. -/
structure Answers (comparison : Comparison K) (tree : RedBlackTreeStruct K V) (order : List Nat)
    (q : K) (answer : Option (Pointer Nat)) : Prop where
  found : ∀ p, answer = some p →
    ∃ a ∈ order, p = .node a ∧ ∃ k, tree.key p = some k ∧ comparison.compare k q = 0
  missing : answer = none →
    ∀ a ∈ order, ∀ k ∈ tree.key (.node a), comparison.compare k q ≠ 0

section Subtree

variable {red : Bool} {x : Nat} {k q : K} {left right : ColorTree Nat}
  {answer : Option (Pointer Nat)}

/-- A node with a later key leaves the answer to its left subtree. -/
theorem Answers.ofLeft (answers : Answers comparison tree left.inorder q answer)
    (sorted : comparison.Sorted (fun a => tree.key (.node a))
      (ColorTree.node red left x right).inorder)
    (keyX : tree.key (.node x) = some k) (later : comparison.compare k q = 1) :
    Answers comparison tree (ColorTree.node red left x right).inorder q answer := by
  simp only [Comparison.Sorted, ColorTree.inorder, List.pairwise_append, List.pairwise_cons] at sorted
  obtain ⟨-, ⟨upper, -⟩, -⟩ := sorted
  refine ⟨fun p found => ?_, fun missing a mem ka keyA => ?_⟩
  · obtain ⟨a, mem, rest⟩ := answers.found p found
    exact ⟨a, by simp [ColorTree.inorder, mem], rest⟩
  · simp only [ColorTree.inorder, List.mem_append, List.mem_cons] at mem
    rcases mem with mem | rfl | mem
    · exact answers.missing missing a mem ka keyA
    · obtain rfl : k = ka := by simpa [keyX] using keyA
      omega
    · have after := comparison.after_of_after later (upper a mem k keyX ka keyA)
      omega

/-- A node with an earlier key leaves the answer to its right subtree. -/
theorem Answers.ofRight (answers : Answers comparison tree right.inorder q answer)
    (sorted : comparison.Sorted (fun a => tree.key (.node a))
      (ColorTree.node red left x right).inorder)
    (keyX : tree.key (.node x) = some k) (earlier : comparison.compare k q = -1) :
    Answers comparison tree (ColorTree.node red left x right).inorder q answer := by
  simp only [Comparison.Sorted, ColorTree.inorder, List.pairwise_append, List.mem_cons] at sorted
  obtain ⟨-, -, across⟩ := sorted
  refine ⟨fun p found => ?_, fun missing a mem ka keyA => ?_⟩
  · obtain ⟨a, mem, rest⟩ := answers.found p found
    exact ⟨a, by simp [ColorTree.inorder, mem], rest⟩
  · simp only [ColorTree.inorder, List.mem_append, List.mem_cons] at mem
    rcases mem with mem | rfl | mem
    · have before := comparison.before_of_before earlier (across a mem x (.inl rfl) ka keyA k keyX)
      omega
    · obtain rfl : k = ka := by simpa [keyX] using keyA
      omega
    · exact answers.missing missing a mem ka keyA

end Subtree

/-- A node of the tree with an equal key is an answer. -/
theorem Answers.ofNode {order : List Nat} {q k : K} {x : Nat} (mem : x ∈ order)
    (keyX : tree.key (.node x) = some k) (equal : comparison.compare k q = 0) :
    Answers comparison tree order q (some (.node x)) where
  found p found := by
    obtain rfl := Option.some.inj found
    exact ⟨x, mem, rfl, k, keyX, equal⟩
  missing := nofun

/-- The search finds an equal key below its start whenever there is one. -/
theorem queryLoop_spec {fuel : Nat} {parent : Pointer Nat} {q : K}
    (laid : Laid tree.toLinks parent shape)
    (keys : ∀ a ∈ shape.inorder, (tree.key (.node a)).isSome)
    (sorted : comparison.Sorted (fun a => tree.key (.node a)) shape.inorder)
    (enough : shape.height < fuel) :
    ∃ answer, queryLoop comparison.compare tree q fuel shape.top = some answer ∧
      Answers comparison tree shape.inorder q answer := by
  induction fuel generalizing parent shape with
  | zero => omega
  | succ fuel ih =>
      cases shape with
      | nil => exact ⟨none, by simp [queryLoop], nofun, by simp [ColorTree.inorder]⟩
      | node red left x right =>
          obtain ⟨-, -, leftLink, rightLink, leftLaid, rightLaid⟩ := laid
          obtain ⟨k, keyX⟩ := Option.isSome_iff_exists.mp (keys x (by simp [ColorTree.inorder]))
          simp only [ColorTree.inorder, List.mem_append, List.mem_cons] at keys
          simp only [ColorTree.height] at enough
          have parts := List.pairwise_append.mp sorted
          have unfolded : queryLoop comparison.compare tree q (fuel + 1) (.node x) =
              if 0 = comparison.compare k q then some (some (.node x))
              else if 1 = comparison.compare k q then
                queryLoop comparison.compare tree q fuel left.top
              else queryLoop comparison.compare tree q fuel right.top := by
            simp [queryLoop, keyX, leftLink, rightLink]
          rw [ColorTree.top, unfolded]
          rcases comparison.values k q with later | equal | earlier
          · obtain ⟨answer, run, answers⟩ := ih leftLaid (fun a mem => keys a (.inl mem)) parts.1
              (by omega)
            exact ⟨answer, by simp [later, run], answers.ofLeft sorted keyX later⟩
          · exact ⟨some (.node x), by simp [equal],
              Answers.ofNode (by simp [ColorTree.inorder]) keyX equal⟩
          · obtain ⟨answer, run, answers⟩ := ih rightLaid (fun a mem => keys a (.inr (.inr mem)))
              (List.pairwise_cons.mp parts.2.1).2 (by omega)
            exact ⟨answer, by simp [earlier, run], answers.ofRight sorted keyX earlier⟩

/-- A search in a well-formed tree returns and is right. -/
theorem rbExactQuery_spec (wellFormed : WellFormed comparison tree shape) (q : K) :
    ∃ answer, rbExactQuery comparison.compare (some tree) q = some answer ∧
      Answers comparison tree shape.inorder q answer := by
  obtain ⟨answer, run, answers⟩ := queryLoop_spec wellFormed.stored.holds.2
    (fun a mem => (wellFormed.keys a).mpr mem) wellFormed.sorted wellFormed.height_lt
  rw [← wellFormed.top_eq] at run
  exact ⟨answer, run, answers⟩

/-- A search reads only the links and the keys. -/
theorem queryLoop_congr {first second : RedBlackTreeStruct K V} {compare : K → K → Int} {q : K}
    (child : first.child = second.child) (key : first.key = second.key) (fuel : Nat)
    (x : Pointer Nat) : queryLoop compare first q fuel x = queryLoop compare second q fuel x := by
  induction fuel generalizing x with
  | zero => rfl
  | succ fuel ih => simp only [queryLoop, child, key, ih]

/-- The callbacks that a list of nodes receives. -/
def destroyed (tree : RedBlackTreeStruct K V) (order : List Nat) : List (Destroy K V) :=
  order.flatMap fun a => [.key (tree.key (.node a)), .info (tree.info (.node a))]

/-- The recursion hands every node below its start to the callbacks, children first. -/
theorem treeDestHelper_spec {fuel : Nat} {parent : Pointer Nat}
    (laid : Laid tree.toLinks parent shape) (enough : shape.height < fuel) :
    treeDestHelper tree fuel shape.top = some (destroyed tree shape.postorder) := by
  induction fuel generalizing parent shape with
  | zero => omega
  | succ fuel ih =>
      cases shape with
      | nil => simp [treeDestHelper, destroyed, ColorTree.postorder]
      | node red left x right =>
          obtain ⟨-, -, leftLink, rightLink, leftLaid, rightLaid⟩ := laid
          simp only [ColorTree.height] at enough
          have leftRun := ih leftLaid (by omega)
          have rightRun := ih rightLaid (by omega)
          simp [treeDestHelper, leftLink, rightLink, leftRun, rightRun, destroyed,
            ColorTree.postorder]

/-- Destroying a well-formed tree returns. -/
theorem rbTreeDestroy_spec (wellFormed : WellFormed comparison tree shape) :
    rbTreeDestroy tree = some (destroyed tree shape.postorder) := by
  have run := treeDestHelper_spec wellFormed.stored.holds.2 wellFormed.height_lt
  rwa [← wellFormed.top_eq] at run

end BandwidthLimiter
