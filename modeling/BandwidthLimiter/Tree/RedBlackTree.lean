import BandwidthLimiter.Foundation.Fuel
import BandwidthLimiter.Foundation.LinkedTree

namespace BandwidthLimiter
open Foundation

/-- The tree structure with one map for each node field; `nil` and `root` are its sentinels. -/
structure RedBlackTreeStruct (K V : Type) extends Links Nat where
  key : Pointer Nat → Option K
  info : Pointer Nat → Option V
  visited : Pointer Nat → Bool
  currentTraversePoint : Option (Pointer Nat)
  /-- The number of nodes allocated so far; it is also the next address of `safe_malloc`. -/
  fresh : Nat

/-- The calls that reach the destroy callbacks of the tree, with their arguments. -/
inductive Destroy (K V : Type) where
  | key (key : Option K)
  | info (info : Option V)
  deriving DecidableEq, Repr

/-- The link of `above` that holds `x` receives `y`; the source tests for a left child first. -/
def replaceChild (tree : Links Nat) (above x y : Pointer Nat) : Links Nat :=
  if x = tree.child .left above then tree.setChild .left above y
  else tree.setChild .right above y

/-- Both rotations move a node below its child on the other side. -/
def rotate (side : Side) (tree : Links Nat) (x : Pointer Nat) : Links Nat :=
  let y := tree.child side.flip x
  let tree := tree.setChild side.flip x (tree.child side y)
  let tree := if tree.child side y ≠ .nil then tree.setParent (tree.child side y) x else tree
  let tree := tree.setParent y (tree.parent x)
  let tree := replaceChild tree (tree.parent x) x y
  let tree := tree.setChild side y x
  tree.setParent x y

def leftRotate (tree : Links Nat) (x : Pointer Nat) : Links Nat := rotate .left tree x

def rightRotate (tree : Links Nat) (y : Pointer Nat) : Links Nat := rotate .right tree y

/-- The last recoloring and rotation of an insertion step. -/
def insertLastRotation (side : Side) (tree : Links Nat) (x : Pointer Nat) : Links Nat :=
  let tree := tree.setRed (tree.parent x) false
  let tree := tree.setRed (tree.parent (tree.parent x)) true
  rotate side.flip tree (tree.parent (tree.parent x))

/-- The insertion loop for a parent that is a child on the given side. -/
def insertFixUpSide (side : Side) (tree : Links Nat) (x : Pointer Nat) :
    Links Nat × Pointer Nat :=
  let y := tree.child side.flip (tree.parent (tree.parent x))
  if tree.red y then
    let tree := tree.setRed (tree.parent x) false
    let tree := tree.setRed y false
    let tree := tree.setRed (tree.parent (tree.parent x)) true
    (tree, tree.parent (tree.parent x))
  else
    let (tree, x) :=
      if x = tree.child side.flip (tree.parent x) then
        (rotate side tree (tree.parent x), tree.parent x)
      else (tree, x)
    (insertLastRotation side tree x, x)

/-- The `while` loop of `rb_tree_insert`. -/
def insertFixUp : Nat → Links Nat → Pointer Nat → Option (Links Nat)
  | 0, _, _ => none
  | fuel + 1, tree, x =>
      if tree.red (tree.parent x) then
        let side : Side :=
          if tree.parent x = tree.child .left (tree.parent (tree.parent x)) then .left else .right
        let (tree, x) := insertFixUpSide side tree x
        insertFixUp fuel tree x
      else some tree

/-- The first part of a deletion step gives the node a black sibling. -/
def deleteBlackSibling (side : Side) (tree : Links Nat) (x : Pointer Nat) :
    Links Nat × Pointer Nat :=
  let w := tree.child side.flip (tree.parent x)
  if tree.red w then
    let tree := tree.setRed w false
    let tree := tree.setRed (tree.parent x) true
    let tree := rotate side tree (tree.parent x)
    (tree, tree.child side.flip (tree.parent x))
  else (tree, w)

/-- The second part gives the black sibling a red child on its far side. -/
def deleteRedNephew (side : Side) (tree : Links Nat) (x w : Pointer Nat) :
    Links Nat × Pointer Nat :=
  if !tree.red (tree.child side.flip w) then
    let tree := tree.setRed (tree.child side w) false
    let tree := tree.setRed w true
    let tree := rotate side.flip tree w
    (tree, tree.child side.flip (tree.parent x))
  else (tree, w)

/-- The last part moves the missing black node to the side of `x`. -/
def deleteLastRotation (side : Side) (tree : Links Nat) (x w : Pointer Nat) : Links Nat :=
  let tree := tree.setRed w (tree.red (tree.parent x))
  let tree := tree.setRed (tree.parent x) false
  let tree := tree.setRed (tree.child side.flip w) false
  rotate side tree (tree.parent x)

/-- The step below a black sibling `w` either moves up or ends the loop at `top`. -/
def deleteBlackStep (side : Side) (tree : Links Nat) (top x w : Pointer Nat) :
    Links Nat × Pointer Nat :=
  if !tree.red (tree.child .right w) && !tree.red (tree.child .left w) then
    (tree.setRed w true, tree.parent x)
  else
    let (tree, w) := deleteRedNephew side tree x w
    (deleteLastRotation side tree x w, top)

/-- The deletion loop for a node that is a child on the given side. -/
def deleteFixUpSide (side : Side) (tree : Links Nat) (top x : Pointer Nat) :
    Links Nat × Pointer Nat :=
  let (tree, w) := deleteBlackSibling side tree x
  deleteBlackStep side tree top x w

/-- The `while` loop of `rb_delete_fix_up`; `top` is the node that the source reads into `root`. -/
def deleteFixUpLoop (top : Pointer Nat) : Nat → Links Nat → Pointer Nat → Option (Links Nat)
  | 0, _, _ => none
  | fuel + 1, tree, x =>
      if !tree.red x && top ≠ x then
        let side : Side := if x = tree.child .left (tree.parent x) then .left else .right
        let (tree, x) := deleteFixUpSide side tree top x
        deleteFixUpLoop top fuel tree x
      else some (tree.setRed x false)

def rbDeleteFixUp (fuel : Nat) (tree : Links Nat) (x : Pointer Nat) : Option (Links Nat) :=
  deleteFixUpLoop (tree.child .left .root) fuel tree x

/-- The descent along one side: `while ( y->left != nil ) y = y->left`. -/
def outermost (side : Side) (tree : Links Nat) : Nat → Pointer Nat → Option (Pointer Nat)
  | 0, _ => none
  | fuel + 1, y =>
      if tree.child side y ≠ .nil then outermost side tree fuel (tree.child side y) else some y

/-- The climb of `tree_successor`: `while ( x == y->right )`. -/
def climbFromRight (tree : Links Nat) : Nat → Pointer Nat → Pointer Nat → Option (Pointer Nat)
  | 0, _, _ => none
  | fuel + 1, x, y =>
      if x = tree.child .right y then climbFromRight tree fuel y (tree.parent y) else some y

def treeSuccessor (fuel : Nat) (tree : Links Nat) (x : Pointer Nat) : Option (Pointer Nat) := do
  let y := tree.child .right x
  if .nil ≠ y then outermost .left tree fuel y
  else
    let y ← climbFromRight tree fuel x (tree.parent x)
    if y = .root then return .nil else return y

/-- The climb of `tree_predecessor`, which tests for the root sentinel inside the loop. -/
def climbFromLeft (tree : Links Nat) : Nat → Pointer Nat → Pointer Nat → Option (Pointer Nat)
  | 0, _, _ => none
  | fuel + 1, x, y =>
      if x = tree.child .left y then
        if y = .root then some .nil else climbFromLeft tree fuel y (tree.parent y)
      else some y

def treePredecessor (fuel : Nat) (tree : Links Nat) (x : Pointer Nat) : Option (Pointer Nat) :=
  let y := tree.child .left x
  if .nil ≠ y then outermost .right tree fuel y
  else climbFromLeft tree fuel x (tree.parent x)

/-- The nodes in the order in which `inorder_tree_print` prints them. -/
def inorderTreePrint (tree : Links Nat) : Nat → Pointer Nat → Option (List (Pointer Nat))
  | 0, _ => none
  | fuel + 1, x =>
      if x ≠ .nil then do
        let left ← inorderTreePrint tree fuel (tree.child .left x)
        let right ← inorderTreePrint tree fuel (tree.child .right x)
        return left ++ x :: right
      else some []

namespace RedBlackTreeStruct

variable {K V : Type}

/-- Every loop on a well-formed tree passes each allocated node at most once. -/
def loopBound (tree : RedBlackTreeStruct K V) : Nat := tree.fresh + 1

def setInfo (tree : RedBlackTreeStruct K V) (node : Pointer Nat) (info : V) :
    RedBlackTreeStruct K V :=
  { tree with info := fun p => if p = node then some info else tree.info p }

/-- The call `free` makes the key and the information of a node unreadable. -/
def free (tree : RedBlackTreeStruct K V) (node : Pointer Nat) : RedBlackTreeStruct K V :=
  { tree with
    key := fun p => if p = node then none else tree.key p
    info := fun p => if p = node then none else tree.info p }

/-- The node that `safe_malloc` returns with its key and information stored. -/
def allocate (tree : RedBlackTreeStruct K V) (key : K) (info : V) : RedBlackTreeStruct K V :=
  { tree with
    toLinks := tree.toLinks.setRed (.node tree.fresh) false
    key := fun p => if p = .node tree.fresh then some key else tree.key p
    info := fun p => if p = .node tree.fresh then some info else tree.info p
    visited := fun p => if p = .node tree.fresh then false else tree.visited p
    fresh := tree.fresh + 1 }

end RedBlackTreeStruct

variable {K V : Type}

def rbTreeCreate (K V : Type) : RedBlackTreeStruct K V where
  child := fun _ _ => .nil
  parent := fun _ => .nil
  red := fun _ => false
  key := fun _ => none
  info := fun _ => none
  visited := fun _ => false
  currentTraversePoint := none
  fresh := 0

section Compare

variable (compare : K → K → Int)

/-- The descent of `tree_insert_help`; `y` is the parent of `x`. -/
def insertDescent (tree : RedBlackTreeStruct K V) (zKey : K) :
    Nat → Pointer Nat → Pointer Nat → Option (Pointer Nat)
  | 0, _, _ => none
  | fuel + 1, y, x =>
      if x = .nil then some y
      else do
        let xKey ← tree.key x
        if 1 = compare xKey zKey then insertDescent tree zKey fuel x (tree.child .left x)
        else insertDescent tree zKey fuel x (tree.child .right x)

/-- The function `tree_insert_help` with at most `bound` rounds of its loop. -/
def treeInsertHelpWithin (bound : Nat) (tree : RedBlackTreeStruct K V) (z : Pointer Nat) :
    Option (RedBlackTreeStruct K V) := do
  let tree := { tree with toLinks := (tree.toLinks.setChild .right z .nil).setChild .left z .nil }
  let zKey ← tree.key z
  let y ← insertDescent compare tree zKey bound .root (tree.child .left .root)
  let tree := { tree with toLinks := tree.toLinks.setParent z y }
  if y = .root then
    return { tree with toLinks := tree.toLinks.setChild .left y z }
  else
    let yKey ← tree.key y
    if 1 = compare yKey zKey then
      return { tree with toLinks := tree.toLinks.setChild .left y z }
    else
      return { tree with toLinks := tree.toLinks.setChild .right y z }

def treeInsertHelp (tree : RedBlackTreeStruct K V) (z : Pointer Nat) :
    Option (RedBlackTreeStruct K V) := treeInsertHelpWithin compare tree.loopBound tree z

/-- The function `rb_tree_insert` with at most `bound` rounds of each of its loops. -/
def rbTreeInsertWithin (bound : Nat) (tree : RedBlackTreeStruct K V) (key : K) (info : V) :
    Option (RedBlackTreeStruct K V × Pointer Nat) := do
  let x : Pointer Nat := .node tree.fresh
  let tree ← treeInsertHelpWithin compare bound (tree.allocate key info) x
  let links ← insertFixUp bound (tree.toLinks.setRed x true) x
  return ({ tree with toLinks := links.setRed (links.child .left .root) false }, x)

def rbTreeInsert (tree : RedBlackTreeStruct K V) (key : K) (info : V) :
    Option (RedBlackTreeStruct K V × Pointer Nat) :=
  rbTreeInsertWithin compare (tree.allocate key info).loopBound tree key info

/-- The search loop of `rb_exact_query`. -/
def queryLoop (tree : RedBlackTreeStruct K V) (q : K) :
    Nat → Pointer Nat → Option (Option (Pointer Nat))
  | 0, _ => none
  | fuel + 1, x =>
      if x = .nil then some none
      else do
        let xKey ← tree.key x
        if 0 = compare xKey q then return some x
        else if 1 = compare xKey q then queryLoop tree q fuel (tree.child .left x)
        else queryLoop tree q fuel (tree.child .right x)

/-- The search of `rb_exact_query` with at most `bound` rounds of its loop. -/
def rbExactQueryWithin (bound : Nat) (tree : RedBlackTreeStruct K V) (q : K) :
    Option (Option (Pointer Nat)) := queryLoop compare tree q bound (tree.child .left .root)

/-- The inner `none` is the NULL result; a NULL tree gives it at once. -/
def rbExactQuery (tree : Option (RedBlackTreeStruct K V)) (q : K) :
    Option (Option (Pointer Nat)) :=
  match tree with
  | none => some none
  | some tree => rbExactQueryWithin compare tree.loopBound tree q

end Compare

/-- The links of `rb_delete` after it takes `y` out; the parent field of `x` changes even at nil. -/
def spliceOut (tree : Links Nat) (y x : Pointer Nat) : Links Nat :=
  let tree := tree.setParent x (tree.parent y)
  if .root = tree.parent x then tree.setChild .left .root x
  else replaceChild tree (tree.parent y) y x

/-- Both branches of `rb_delete` repair the colors only after a black node is taken out. -/
def deleteRepair (fuel : Nat) (tree : Links Nat) (y x : Pointer Nat) : Option (Links Nat) :=
  if !tree.red y then rbDeleteFixUp fuel tree x else some tree

/-- The links of `rb_delete` after it puts `y` in the place of `z`. -/
def replaceNode (tree : Links Nat) (z y : Pointer Nat) : Links Nat :=
  let tree := tree.setChild .left y (tree.child .left z)
  let tree := tree.setChild .right y (tree.child .right z)
  let tree := tree.setParent y (tree.parent z)
  let tree := tree.setRed y (tree.red z)
  let tree := tree.setParent (tree.child .right z) y
  let tree := tree.setParent (tree.child .left z) y
  replaceChild tree (tree.parent z) z y

/-- The function `rb_delete` with at most `bound` rounds of each of its loops. -/
def rbDeleteWithin (bound : Nat) (tree : RedBlackTreeStruct K V) (z : Pointer Nat) :
    Option (RedBlackTreeStruct K V × List (Destroy K V)) := do
  let y ←
    if tree.child .left z = .nil ∨ tree.child .right z = .nil then some z
    else treeSuccessor bound tree.toLinks z
  let x := if tree.child .left y = .nil then tree.child .right y else tree.child .left y
  let links := spliceOut tree.toLinks y x
  if y ≠ z then
    let links ← deleteRepair bound links y x
    let destroyed := [.key (tree.key z), .info (tree.info z)]
    return ({ tree with toLinks := replaceNode links z y }.free z, destroyed)
  else
    let destroyed := [.key (tree.key y), .info (tree.info y)]
    let links ← deleteRepair bound links y x
    return ({ tree with toLinks := links }.free y, destroyed)

def rbDelete (tree : RedBlackTreeStruct K V) (z : Pointer Nat) :
    Option (RedBlackTreeStruct K V × List (Destroy K V)) := rbDeleteWithin tree.loopBound tree z

def treeDestHelper (tree : RedBlackTreeStruct K V) :
    Nat → Pointer Nat → Option (List (Destroy K V))
  | 0, _ => none
  | fuel + 1, x =>
      if x ≠ .nil then do
        let left ← treeDestHelper tree fuel (tree.child .left x)
        let right ← treeDestHelper tree fuel (tree.child .right x)
        return left ++ right ++ [.key (tree.key x), .info (tree.info x)]
      else some []

def rbTreeDestroy (tree : RedBlackTreeStruct K V) : Option (List (Destroy K V)) :=
  treeDestHelper tree tree.loopBound (tree.child .left .root)

def rbTreePrint (tree : RedBlackTreeStruct K V) : Option (List (Pointer Nat)) :=
  inorderTreePrint tree.toLinks tree.loopBound (tree.child .left .root)

/-- The iterator marks the first node in order. -/
def start (tree : RedBlackTreeStruct K V) :
    Option (RedBlackTreeStruct K V × Option (Pointer Nat)) := do
  let point ← outermost .left tree.toLinks tree.loopBound (tree.child .left .root)
  let tree := { tree with currentTraversePoint := some point }
  if point = .nil then return (tree, none)
  else return ({ tree with visited := fun p => if p = point then true else tree.visited p }, some point)

/-- The climb of `next` past the visited nodes; the result is NULL at the top. -/
def climbVisited (tree : RedBlackTreeStruct K V) :
    Nat → Pointer Nat → Option (Pointer Nat × Bool)
  | 0, _ => none
  | fuel + 1, point =>
      if tree.visited point then
        if tree.parent point = .root then some (point, true)
        else climbVisited tree fuel (tree.parent point)
      else some (point, false)

def next (tree : RedBlackTreeStruct K V) :
    Option (RedBlackTreeStruct K V × Option (Pointer Nat)) := do
  let current ← tree.currentTraversePoint
  let mark (point : Pointer Nat) : RedBlackTreeStruct K V :=
    { tree with
      currentTraversePoint := some point
      visited := fun p => if p = point then true else tree.visited p }
  let right := tree.child .right current
  if right ≠ .nil ∧ !tree.visited right then
    let point ← outermost .left tree.toLinks tree.loopBound right
    return (mark point, some point)
  else if tree.visited current then
    let (point, atTop) ← climbVisited tree tree.loopBound current
    if atTop then return ({ tree with currentTraversePoint := some point }, none)
    else return (mark point, some point)
  else return (mark current, some current)

end BandwidthLimiter
