import XmlTree.Arena.Lineage

/-!
# Document order

A node comes before everything below it.  Below an element come its declarations
in map order, then its attributes in map order, then its children with all that
is below them.  Separate trees are ordered only if both are rooted in documents,
which are taken in the order of creation.

There are two ways to the order.

* `compareOrder` follows two lineages down from their common root to the owner
  at which they part, and compares the ranks of the two nodes below that owner.
* `sortDocumentOrder` gives each node a key, the ranks along its whole lineage,
  and sorts by it.

An owner that does not list a node has no rank for it.  The comparison notices
this only at the owner where the lineages part, and the sort at every owner.
-/

namespace XmlTree

/-! ## Ranks -/

/-- The place of a node below its owner. -/
inductive SiblingRank where
  /-- A declaration and its place in the map. -/
  | declaration (position : Nat)
  /-- An attribute and its place in the map. -/
  | attr (position : Nat)
  /-- A child and its place in the list. -/
  | child (position : Nat)
deriving DecidableEq, Repr

namespace SiblingRank

/-- Declarations come first, then attributes, then children. -/
def tier : SiblingRank → Nat
  | declaration _ => 0
  | attr _ => 1
  | child _ => 2

/-- The place among ranks of the same tier. -/
def position : SiblingRank → Nat
  | declaration p | attr p | child p => p

/-- The order of ranks: by tier, then by place. -/
def compare (x y : SiblingRank) : Ordering :=
  (Ord.compare x.tier y.tier).then (Ord.compare x.position y.position)

/-- The order of two paths of ranks.  A path comes before its continuations. -/
def comparePaths : List SiblingRank → List SiblingRank → Ordering
  | [], [] => .eq
  | [], _ :: _ => .lt
  | _ :: _, [] => .gt
  | x :: xs, y :: ys => (x.compare y).then (comparePaths xs ys)

end SiblingRank

namespace Arena

/-- The rank of a node in what an owner lists.  A declaration or an attribute of
an element is looked up under its own key, anything else in the child list. -/
def listedRank? (id : NodeId) (node owner : Node) : Option SiblingRank :=
  match node.kind, owner.kind with
  | .namespaceDecl data, .element element =>
      if element.declarations.get? data.nsPrefix = some id then
        (element.declarations.position? data.nsPrefix).map .declaration
      else none
  | .attr data, .element element =>
      if element.attributes.get? data.expandedName = some id then
        (element.attributes.position? data.expandedName).map .attr
      else none
  | _, kind => (kind.children.idxOf? id).map .child

/-- The rank of a node below `owner`. -/
def siblingRank (a : Arena) (owner id : NodeId) : Except TreeError SiblingRank := do
  let ownerNode ← a.get owner
  let node ← a.get id
  match listedRank? id node ownerNode with
  | some rank => return rank
  | none => throw (.lost id owner)

/-! ## Comparison -/

/-- The way from a root down to a node. -/
structure Descent where
  /-- The identity of the root. -/
  root : NodeId
  /-- The root itself. -/
  node : Node
  /-- The identities below the root, the node itself last. -/
  steps : List NodeId

/-- The way down to the start of a lineage, where `below` lies under it. -/
def descentOnto (below : List NodeId) : Lineage → Except TreeError Descent
  | .top id node => .ok ⟨id, node, below⟩
  | .missing id => .error (.notFound id)
  | .step id _ above => descentOnto (id :: below) above

/-- The way from the root down to a node. -/
def descent (a : Arena) (id : NodeId) : Except TreeError Descent := descentOnto [] (a.lineage id)

/-- The order of two nodes below `owner`, given by the steps down to them.  Where
one way ends on the other, its node lies above. -/
def compareSteps (a : Arena) (owner : NodeId) :
    List NodeId → List NodeId → Except TreeError Ordering
  | [], [] => return .eq
  | [], _ :: _ => return .lt
  | _ :: _, [] => return .gt
  | x :: xs, y :: ys => do
      if x = y then a.compareSteps x xs ys
      else
        let rankX ← a.siblingRank owner x
        let rankY ← a.siblingRank owner y
        return rankX.compare rankY

/-- The order of two trees.  Only documents have one. -/
def compareTrees (x y : Descent) : Option Ordering :=
  match x.node.document?, y.node.document? with
  | some documentX, some documentY =>
      some ((compare documentX.index documentY.index).then (compare x.root.index y.root.index))
  | _, _ => none

/-- The document order of two nodes.  There is none between trees that are not
both rooted in documents. -/
def compareOrder (a : Arena) (x y : NodeId) : Except TreeError (Option Ordering) := do
  if x = y then
    discard (a.get x)
    return some .eq
  let wayX ← a.descent x
  let wayY ← a.descent y
  if wayX.root = wayY.root then return some (← a.compareSteps wayX.root wayX.steps wayY.steps)
  else return compareTrees wayX wayY

/-! ## Sorting -/

/-- What the document order of a node depends on. -/
structure OrderKey where
  /-- The place of the root in the order of creation, if it is a document. -/
  documentIndex : Option Nat
  /-- The identity of the root. -/
  root : NodeId
  /-- The ranks from the root down to the node. -/
  path : List SiblingRank
deriving DecidableEq

namespace OrderKey

/-- Trees without a document come first. -/
def compareIndex : Option Nat → Option Nat → Ordering
  | none, none => .eq
  | none, some _ => .lt
  | some _, none => .gt
  | some i, some j => Ord.compare i j

/-- The order of keys: by document, by root, by path. -/
def compare (x y : OrderKey) : Ordering :=
  ((compareIndex x.documentIndex y.documentIndex).then
    (Ord.compare x.root.index y.root.index)).then (SiblingRank.comparePaths x.path y.path)

/-- Whether two keys are in one tree or both under documents. -/
def comparable (x y : OrderKey) : Bool :=
  x.root == y.root || (x.documentIndex.isSome && y.documentIndex.isSome)

end OrderKey

/-- The key of the start of a lineage, where the path `below` leads on from it. -/
def keyOnto (a : Arena) (below : List SiblingRank) : Lineage → Except TreeError OrderKey
  | .top id node => .ok ⟨node.document?.map DocumentData.index, id, below⟩
  | .missing id => .error (.notFound id)
  | .step id _ above => do
      let rank ← a.siblingRank above.first id
      a.keyOnto (rank :: below) above

/-- The order key of a node. -/
def orderKey (a : Arena) (id : NodeId) : Except TreeError OrderKey :=
  a.keyOnto [] (a.lineage id)

/-- Fails at the first node that cannot be compared with the first of all. -/
def checkComparable : List (OrderKey × NodeId) → Except TreeError Unit
  | [] => return
  | first :: rest =>
      match rest.find? fun entry => !entry.1.comparable first.1 with
      | some entry => throw (.unorderable first.2 entry.2)
      | none => return

/-- The given nodes in document order.  Repeated nodes stay repeated. -/
def sortDocumentOrder (a : Arena) (ids : List NodeId) : Except TreeError (List NodeId) := do
  let keyed ← ids.mapM fun id => return (← a.orderKey id, id)
  checkComparable keyed
  return (keyed.mergeSort fun x y => (x.1.compare y.1).isLE).map Prod.snd

/-- Puts a list of nodes into document order.  It is written back when everything
else has succeeded. -/
def sortInPlace (a : Arena) : EStateM TreeError (List NodeId) Unit := do
  let sorted ← ofExcept (a.sortDocumentOrder (← getThe (List NodeId)))
  set sorted

end Arena

end XmlTree
