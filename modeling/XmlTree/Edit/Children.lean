import XmlTree.Edit
import XmlTree.Arena.Lineage
import XmlTree.Arena.Preorder

/-!
# Child lists

Three edits move children: `appendChild`, `insertBefore` and `removeChild`.  A
child that has a parent leaves it first, so it is never listed twice.

`Arena.checkInsertable` holds the conditions under which a child may come under a
parent: the parent lists children, the child is an element, a text or a comment,
the child is not above the parent, and no node of the moved tree comes to lie
deeper than the arena allows.

`placeBefore` finds the place of an insertion before the child leaves its old
parent, which may be the same.
-/

namespace XmlTree

/-- Fails unless `child` may become a child of `parent`. -/
def Arena.checkInsertable (a : Arena) (parent child : NodeId) : Except TreeError Unit := do
  let parentType ← a.nodeType parent
  unless parentType.isContainer do throw (.wrongType .container parentType)
  let childType ← a.nodeType child
  unless childType.isChild do throw (.hierarchy (.notInsertable childType child))
  let lineage := a.lineage parent
  if lineage.contains child then throw (.hierarchy (.ancestor child parent))
  let summit ← lineage.summit
  let height ← a.height child
  let deepest := summit.depth + 1 + height
  if a.config.maxDepth < deepest then throw (.tooDeep deepest a.config.maxDepth)

/-- The place right before `reference` among the given siblings, once `child` is no
longer one of them. -/
def placeBefore (siblings : List NodeId) (child reference : NodeId) : Option Nat :=
  (siblings.idxOf? reference).map fun position =>
    if (siblings.take position).contains child then position - 1 else position

namespace Edit

/-- Takes a node out of the child list of its owner, if it has one. -/
def detach (child : NodeId) : Edit Unit := do
  match ← query (·.parent child) with
  | none => pure ()
  | some owner =>
      let siblings ← query (·.containerChildren owner)
      unless siblings.contains child do throw (.lost child owner)
      change owner (Node.mapChildren (·.erase child))
      setParent child none

/-- Puts a node without an owner into the child list of `parent`, where `place`
says. -/
def attach (parent child : NodeId) (place : List NodeId → List NodeId) : Edit Unit := do
  discard (query (·.containerChildren parent))
  change parent (Node.mapChildren place)
  setParent child (some parent)

/-- Makes `child` the last child of `parent`. -/
def appendChild (parent child : NodeId) : Edit Unit := do
  query (·.checkInsertable parent child)
  detach child
  attach parent child (· ++ [child])

/-- Makes `child` the child of `parent` that comes right before `reference`.
Nothing happens when the two are the same. -/
def insertBefore (parent child reference : NodeId) : Edit Unit := do
  let node ← query (·.get reference)
  if node.type.isMapped || node.parent != some parent then
    throw (.hierarchy (.referenceNotChild reference parent))
  if child = reference then return
  query (·.checkInsertable parent child)
  let siblings ← query (·.children parent)
  match placeBefore siblings child reference with
  | none => throw (.lost reference parent)
  | some position =>
      detach child
      attach parent child (·.insertIdx position child)

/-- Takes `child` away from `parent`. -/
def removeChild (parent child : NodeId) : Edit Unit := do
  let node ← query (·.get child)
  if node.type.isMapped then throw (.hierarchy (.ownedThroughMap child))
  if node.parent = some parent then detach child
  else throw (.hierarchy (.notChild child parent))

end Edit

end XmlTree
