import BandwidthLimiter.Tree.History

namespace BandwidthLimiter
open Foundation

/-- The pointer that stands for a node or for its absence. -/
def nodeOrNil : Option Nat → Pointer Nat
  | none => .nil
  | some a => .node a

@[simp] theorem nodeOrNil_none : nodeOrNil none = .nil := rfl

@[simp] theorem nodeOrNil_some (a : Nat) : nodeOrNil (some a) = .node a := rfl

/-- The node of an in-order list at one of its ends. -/
def endNode : Side → List Nat → Option Nat
  | .left, order => order.head?
  | .right, order => order.getLast?

section Stored

variable {tree : Links Nat} {path : Path Nat}

/-- The end of a tree lies in its near subtree, or is its first node. -/
theorem endNode_join (side : Side) (red : Bool) (x : Nat) (near far : ColorTree Nat) :
    endNode side (ColorTree.join side red x near far).inorder =
      some ((endNode side near.inorder).getD x) := by
  cases side with
  | left => cases order : near.inorder <;> simp [endNode, ColorTree.join, ColorTree.inorder, order]
  | right =>
      simp only [endNode, ColorTree.join, ColorTree.inorder, List.getLast?_append,
        List.getLast?_cons, Option.some_or]

/-- A proper tree at the front of a list holds the first entry of the list. -/
theorem endNode_front {shape : ColorTree Nat} {z : Nat} {rest after : List Nat}
    (proper : shape ≠ .nil) (order : z :: rest = shape.inorder ++ after) :
    endNode .left shape.inorder = some z := by
  cases shape with
  | nil => exact absurd rfl proper
  | node red left x right =>
      simp only [ColorTree.inorder, List.append_assoc] at order
      cases below : left.inorder with
      | nil =>
          rw [below] at order
          simp [endNode, ColorTree.inorder, below, (List.cons.inj order).1]
      | cons first others =>
          rw [below] at order
          simp [endNode, ColorTree.inorder, below, (List.cons.inj order).1]

/-- The descent along one side ends at the last node on that side; at nil it stays. -/
theorem outermost_end {side : Side} {shape : ColorTree Nat} {fuel : Nat}
    (stored : Stored tree path shape) (enough : shape.height < fuel) :
    outermost side tree fuel shape.top = some (nodeOrNil (endNode side shape.inorder)) := by
  induction fuel generalizing path shape with
  | zero => omega
  | succ fuel ih =>
      by_cases proper : shape = .nil
      · subst proper
        have bare := stored.sentinels.nilChild side
        cases side <;> simp [outermost, bare, endNode, ColorTree.inorder]
      · obtain ⟨red, x, near, far, rfl⟩ := ColorTree.exists_join side proper
        have link := stored.near_eq
        rw [ColorTree.top_join, outermost, link, endNode_join]
        by_cases below : near = .nil
        · subst below
          cases side <;> simp [endNode, ColorTree.inorder]
        · have lower : near.height < fuel := by
            cases side <;> simp only [ColorTree.join, ColorTree.height] at enough <;> omega
          rw [if_pos fun same => below (ColorTree.top_eq_nil.mp same), ih stored.focusNear lower]
          obtain ⟨shade, y, inner, outer, rfl⟩ := ColorTree.exists_join side below
          rw [endNode_join]
          rfl

/-- A climb from a left child compares a node with the sibling, which is another node. -/
theorem Stored.ne_sibling {frame : Frame Nat} {red : Bool} {x : Nat} {left right : ColorTree Nat}
    (stored : Stored tree (frame :: path) (.node red left x right)) :
    Pointer.node x ≠ frame.sibling.top := by
  have apart := distinct_join.mp ((Stored.focus ..).mp stored).distinct
  exact fun same => apart.nearFar x (by simp [ColorTree.inorder]) (ColorTree.mem_of_top same.symm)

/-- The climb of the successor ends at the first node after the focus, or at the root sentinel. -/
theorem climbFromRight_spec {red : Bool} {x fuel : Nat} {left right : ColorTree Nat}
    (stored : Stored tree path (.node red left x right)) (enough : path.length < fuel) :
    climbFromRight tree fuel (.node x) path.parent =
      some (path.after.head?.elim .root .node) := by
  induction path generalizing fuel red x left right with
  | nil =>
      obtain ⟨fuel, rfl, -⟩ := exists_fuel enough
      simp [climbFromRight, Path.parent, Path.after, stored.sentinels.rootRight]
  | cons frame rest ih =>
      obtain ⟨fuel, rfl, spare⟩ := exists_fuel enough
      have other := stored.ne_sibling
      have above := (Stored.focus ..).mp stored
      have up := above.parent_eq
      obtain ⟨side, color, a, sibling⟩ := frame
      cases side with
      | left =>
          have far : tree.child .right (.node a) = sibling.top := above.far_eq
          simp [climbFromRight, Path.parent, Path.after, far, other]
      | right =>
          have near : tree.child .right (.node a) = .node x := above.near_eq
          have climbed := ih above spare
          change climbFromRight tree (fuel + 1) (.node x) (.node a) = _
          rw [climbFromRight, if_pos near.symm, up]
          exact climbed

/-- The climb of the predecessor ends at the last node before the focus, or at nil. -/
theorem climbFromLeft_spec {red : Bool} {x fuel : Nat} {left right : ColorTree Nat}
    (stored : Stored tree path (.node red left x right)) (enough : path.length < fuel) :
    climbFromLeft tree fuel (.node x) path.parent = some (nodeOrNil path.before.getLast?) := by
  induction path generalizing fuel red x left right with
  | nil =>
      obtain ⟨fuel, rfl, -⟩ := exists_fuel enough
      have slot : tree.child .left .root = .node x := stored.holds.1
      simp [climbFromLeft, Path.parent, Path.before, slot]
  | cons frame rest ih =>
      obtain ⟨fuel, rfl, spare⟩ := exists_fuel enough
      have other := stored.ne_sibling
      have above := (Stored.focus ..).mp stored
      have up := above.parent_eq
      obtain ⟨side, color, a, sibling⟩ := frame
      cases side with
      | left =>
          have near : tree.child .left (.node a) = .node x := above.near_eq
          have climbed := ih above spare
          change climbFromLeft tree (fuel + 1) (.node x) (.node a) = _
          rw [climbFromLeft, if_pos near.symm, if_neg (by simp), up]
          exact climbed
      | right =>
          have far : tree.child .left (.node a) = sibling.top := above.far_eq
          simp [climbFromLeft, Path.parent, Path.before, far, other]

/-- The successor of the focus is the first of the nodes that follow it. -/
theorem treeSuccessor_spec {red : Bool} {x fuel : Nat} {left right : ColorTree Nat}
    (stored : Stored tree path (.node red left x right)) (low : right.height < fuel)
    (high : path.length < fuel) :
    treeSuccessor fuel tree (.node x) = some (nodeOrNil (right.inorder ++ path.after).head?) := by
  have turned : Stored tree path (.join .right red x right left) := stored
  have link : tree.child .right (.node x) = right.top := turned.near_eq
  have up : tree.parent (.node x) = path.parent := turned.parent_eq
  by_cases below : right = .nil
  · subst below
    have climbed := climbFromRight_spec stored high
    simp only [treeSuccessor, link, up, climbed, ColorTree.top_nil, ne_eq, not_true_eq_false,
      if_false, Option.bind_eq_bind, Option.bind_some, ColorTree.inorder, List.nil_append]
    cases path.after.head? <;> simp
  · have descended : outermost .left tree fuel right.top = _ := outermost_end turned.focusNear low
    have proper : Pointer.nil ≠ right.top := fun same => below (ColorTree.top_eq_nil.mp same.symm)
    obtain ⟨shade, y, inner, outer, rfl⟩ := ColorTree.exists_join .left below
    simp only [treeSuccessor, link, if_pos proper, descended, endNode, List.head?_append]
    rw [show (ColorTree.join .left shade y inner outer).inorder.head? = _ from
      endNode_join .left shade y inner outer]
    rfl

/-- The predecessor of the focus is the last of the nodes that precede it. -/
theorem treePredecessor_spec {red : Bool} {x fuel : Nat} {left right : ColorTree Nat}
    (stored : Stored tree path (.node red left x right)) (low : left.height < fuel)
    (high : path.length < fuel) :
    treePredecessor fuel tree (.node x) =
      some (nodeOrNil (path.before ++ left.inorder).getLast?) := by
  have joined : Stored tree path (.join .left red x left right) := stored
  have link : tree.child .left (.node x) = left.top := joined.near_eq
  have up : tree.parent (.node x) = path.parent := joined.parent_eq
  by_cases below : left = .nil
  · subst below
    simp [treePredecessor, link, up, climbFromLeft_spec stored high, ColorTree.inorder]
  · have descended : outermost .right tree fuel left.top = _ := outermost_end joined.focusNear low
    have proper : Pointer.nil ≠ left.top := fun same => below (ColorTree.top_eq_nil.mp same.symm)
    obtain ⟨shade, y, inner, outer, rfl⟩ := ColorTree.exists_join .right below
    simp only [treePredecessor, link, if_pos proper, descended, endNode, List.getLast?_append]
    rw [show (ColorTree.join .right shade y inner outer).inorder.getLast? = _ from
      endNode_join .right shade y inner outer]
    rfl

/-- The printing order of a stored tree is its order. -/
theorem inorderTreePrint_spec {parent : Pointer Nat} {shape : ColorTree Nat} {fuel : Nat}
    (laid : Laid tree parent shape) (enough : shape.height < fuel) :
    inorderTreePrint tree fuel shape.top = some (shape.inorder.map .node) := by
  induction fuel generalizing parent shape with
  | zero => omega
  | succ fuel ih =>
      cases shape with
      | nil => simp [inorderTreePrint, ColorTree.inorder]
      | node red left x right =>
          obtain ⟨-, -, leftLink, rightLink, leftLaid, rightLaid⟩ := laid
          simp only [ColorTree.height] at enough
          have leftRun := ih leftLaid (by omega)
          have rightRun := ih rightLaid (by omega)
          simp [inorderTreePrint, leftLink, rightLink, leftRun, rightRun, ColorTree.inorder]

end Stored

section WellFormed

variable {K V : Type} {comparison : Comparison K} {tree : RedBlackTreeStruct K V}
  {shape : ColorTree Nat} {events : List (TreeEvent K V)}

theorem rbTreePrint_spec (wellFormed : WellFormed comparison tree shape) :
    rbTreePrint tree = some (shape.inorder.map .node) := by
  have printed := inorderTreePrint_spec wellFormed.stored.holds.2 wellFormed.height_lt
  rwa [← wellFormed.top_eq] at printed

/-- Around a node, the printing order has its successor and its predecessor. -/
theorem WellFormed.neighbours (wellFormed : WellFormed comparison tree shape) {x : Nat}
    {before after : List Nat} (order : shape.inorder = before ++ x :: after) :
    treeSuccessor tree.loopBound tree.toLinks (.node x) = some (nodeOrNil after.head?) ∧
      treePredecessor tree.loopBound tree.toLinks (.node x) = some (nodeOrNil before.getLast?) := by
  have stored := wellFormed.stored
  obtain ⟨path, red, left, right, plugged, rfl, rfl⟩ :=
    Path.exists_plug_between wellFormed.nodup order
  have high := wellFormed.path_lt plugged
  have size : (ColorTree.node red left x right).size < tree.loopBound :=
    Nat.lt_of_le_of_lt (path.size_le_size _) (plugged ▸ wellFormed.size_lt)
  have low := Nat.lt_of_le_of_lt (ColorTree.height_le_size _) size
  simp only [ColorTree.height] at low
  rw [← plugged] at stored
  exact ⟨treeSuccessor_spec stored.atFocus (by omega) high,
    treePredecessor_spec stored.atFocus (by omega) high⟩

/-- In the printing order, every node stands between its predecessor and its successor. -/
structure Neighbours (tree : RedBlackTreeStruct K V) (nodes : List (Pointer Nat)) : Prop where
  printed : rbTreePrint tree = some nodes
  nodup : nodes.Nodup
  inTree : ∀ a, .node a ∈ nodes ↔ InTree tree.toLinks a
  successor : ∀ first x second, nodes = first ++ x :: second →
    treeSuccessor tree.loopBound tree.toLinks x = some (second.head?.getD .nil)
  predecessor : ∀ first x second, nodes = first ++ x :: second →
    treePredecessor tree.loopBound tree.toLinks x = some (first.getLast?.getD .nil)
  inverse : ∀ x ∈ nodes, ∀ y ∈ nodes,
    treeSuccessor tree.loopBound tree.toLinks x = some y ↔
      treePredecessor tree.loopBound tree.toLinks y = some x

theorem nodeOrNil_eq (node : Option Nat) : nodeOrNil node = (node.map Pointer.node).getD .nil := by
  cases node <;> rfl

/-- The first node after `x` is `y` exactly when the last node before `y` is `x`. -/
theorem head_iff_getLast {nodes first second third fourth : List (Pointer Nat)} {x y : Pointer Nat}
    (nodup : nodes.Nodup) (atX : nodes = first ++ x :: second) (atY : nodes = third ++ y :: fourth) :
    second.head? = some y ↔ third.getLast? = some x := by
  subst atX
  have unique (z : Pointer Nat) {u v : List (Pointer Nat)} (split : first ++ x :: second = u ++ z :: v) :
      z ∉ u ∧ z ∉ v := by
    rw [split] at nodup
    simpa using (List.nodup_cons.mp (List.nodup_middle.mp nodup)).1
  constructor
  · intro next
    obtain ⟨rest, rfl⟩ := List.head?_eq_some_iff.mp next
    have same : third ++ y :: fourth = (first ++ [x]) ++ y :: rest := by simpa using atY.symm
    obtain ⟨rfl, -, -⟩ := (List.append_cons_inj_of_notMem (unique y atY).1 (unique y atY).2).mp same
    simp
  · intro last
    obtain ⟨rest, rfl⟩ := List.getLast?_eq_some_iff.mp last
    have same : first ++ x :: second = rest ++ x :: y :: fourth := by simpa using atY
    obtain ⟨-, -, rfl⟩ := (List.append_cons_inj_of_notMem (unique x rfl).1 (unique x rfl).2).mp same
    rfl

theorem WellFormed.allNeighbours (wellFormed : WellFormed comparison tree shape) :
    Neighbours tree (shape.inorder.map .node) := by
  have nodup : (shape.inorder.map Pointer.node).Nodup :=
    wellFormed.nodup.map fun _ _ => Pointer.node.inj
  have around {first second : List (Pointer Nat)} {x : Pointer Nat}
      (order : shape.inorder.map .node = first ++ x :: second) :
      treeSuccessor tree.loopBound tree.toLinks x = some (second.head?.getD .nil) ∧
        treePredecessor tree.loopBound tree.toLinks x = some (first.getLast?.getD .nil) := by
    obtain ⟨before, rest, split, rfl, restEq⟩ := List.map_eq_append_iff.mp order
    obtain ⟨a, after, rfl, rfl, rfl⟩ := List.map_eq_cons_iff.mp restEq
    obtain ⟨next, last⟩ := wellFormed.neighbours split
    rw [next, last, nodeOrNil_eq, nodeOrNil_eq, List.head?_map, List.getLast?_map]
    exact ⟨rfl, rfl⟩
  refine ⟨rbTreePrint_spec wellFormed, nodup, ?_, fun _ _ _ order => (around order).1,
    fun _ _ _ order => (around order).2, ?_⟩
  · intro a
    simp [wellFormed.stored.inTree_iff]
  · intro x xMem y yMem
    obtain ⟨first, second, atX⟩ := List.append_of_mem xMem
    obtain ⟨third, fourth, atY⟩ := List.append_of_mem yMem
    have proper {z : Pointer Nat} (mem : z ∈ shape.inorder.map .node) : Pointer.nil ≠ z := by
      rintro rfl
      simp at mem
    have some_iff {node : Option (Pointer Nat)} {z : Pointer Nat} (other : Pointer.nil ≠ z) :
        some (node.getD .nil) = some z ↔ node = some z := by
      cases node <;> simp [other]
    rw [(around atX).1, (around atY).2, some_iff (proper yMem), some_iff (proper xMem)]
    exact head_iff_getLast nodup atX atY

end WellFormed

/-- In every tree that a client builds, successor and predecessor are the neighbours in order. -/
theorem treeRun_neighbours {K V : Type} {comparison : Comparison K} {events : List (TreeEvent K V)}
    {tree : RedBlackTreeStruct K V}
    (run : Run (TreeStep comparison.compare) (rbTreeCreate K V) events tree) :
    ∃ nodes, Neighbours tree nodes := by
  obtain ⟨shape, wellFormed⟩ := treeRun_wellFormed run
  exact ⟨_, wellFormed.allNeighbours⟩

theorem equalKeys_neighbours : Neighbours equalKeys [.node 0, .node 1] := by
  obtain ⟨nodes, neighbours⟩ := treeRun_neighbours equalKeys_run
  have printed : rbTreePrint equalKeys = some [.node 0, .node 1] := rfl
  obtain rfl := Option.some.inj (neighbours.printed.symm.trans printed)
  exact neighbours

end BandwidthLimiter
