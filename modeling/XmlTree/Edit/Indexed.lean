import XmlTree.Edit.Children

/-!
# Child lists by index

The edits of child lists find places by index, and an index can be wrong.  The place before a
reference is found before the child leaves its owner, one less if the child stands before the
reference, and it is used when the list may have become shorter.

Here the same edits are written with a check of every index at the moment it is used.  An
index that would fall below zero or lies beyond the end of its list ends the edit with a
fault.  No arena makes that happen, not even one whose owners and lists contradict each
other: what the checked edits do is what the edits do (`IndexedEdit.Safe`).
-/

namespace XmlTree

/-- Why an edit that checks its indices ends early. -/
inductive Fault where
  /-- The edit is refused. -/
  | refused (e : TreeError)
  /-- An index would fall below zero. -/
  | belowZero
  /-- An index lies beyond the end of a list. -/
  | beyondEnd (index length : Nat)
deriving DecidableEq, Repr

/-- A computation that changes an arena and checks its indices. -/
abbrev IndexedEdit (α : Type) := EStateM Fault Arena α

namespace IndexedEdit

/-- An edit as one that uses no index. -/
def ofEdit {α : Type} (edit : Edit α) : IndexedEdit α := fun a =>
  match edit a with
  | .ok answer a' => .ok answer a'
  | .error e a' => .error (.refused e) a'

instance : MonadLift Edit IndexedEdit := ⟨ofEdit⟩

/-! ## Indices -/

/-- The index before another one. -/
def predecessor : Nat → IndexedEdit Nat
  | 0 => throw .belowZero
  | index + 1 => return index

/-- Takes out what stands at an index of the child list of a container. -/
def removeAt (owner : NodeId) (index : Nat) : IndexedEdit Unit := do
  let siblings ← Edit.query (·.containerChildren owner)
  unless index < siblings.length do throw (.beyondEnd index siblings.length)
  Edit.change owner (Node.mapChildren (·.eraseIdx index))

/-- Puts a child into the child list of a container, so that it stands at an index. -/
def insertAt (parent child : NodeId) (index : Nat) : IndexedEdit Unit := do
  let siblings ← Edit.query (·.containerChildren parent)
  unless index ≤ siblings.length do throw (.beyondEnd index siblings.length)
  Edit.change parent (Node.mapChildren (·.insertIdx index child))

/-- The index right before `reference` among its siblings, once `child` is no longer one of
them. -/
def indexBefore (siblings : List NodeId) (parent child reference : NodeId) : IndexedEdit Nat :=
  match siblings.idxOf? reference with
  | none => throw (.refused (.lost reference parent))
  | some position =>
      if (siblings.take position).contains child then predecessor position else return position

/-! ## Child lists -/

/-- Takes a node out of the child list of its owner, if it has one. -/
def detach (child : NodeId) : IndexedEdit Unit := do
  match ← Edit.query (·.parent child) with
  | none => pure ()
  | some owner =>
      let siblings ← Edit.query (·.containerChildren owner)
      match siblings.idxOf? child with
      | none => throw (.refused (.lost child owner))
      | some index =>
          removeAt owner index
          Edit.setParent child none

/-- Makes `child` the last child of `parent`. -/
def appendChild (parent child : NodeId) : IndexedEdit Unit := do
  Edit.query (·.checkInsertable parent child)
  detach child
  let siblings ← Edit.query (·.containerChildren parent)
  insertAt parent child siblings.length
  Edit.setParent child (some parent)

/-- Makes `child` the child of `parent` that comes right before `reference`.
Nothing happens when the two are the same. -/
def insertBefore (parent child reference : NodeId) : IndexedEdit Unit := do
  let node ← Edit.query (·.get reference)
  if node.type.isMapped || node.parent != some parent then
    throw (.refused (.hierarchy (.referenceNotChild reference parent)))
  if child = reference then return
  Edit.query (·.checkInsertable parent child)
  let siblings ← Edit.query (·.children parent)
  let index ← indexBefore siblings parent child reference
  detach child
  insertAt parent child index
  Edit.setParent child (some parent)

/-- Takes `child` away from `parent`. -/
def removeChild (parent child : NodeId) : IndexedEdit Unit := do
  let node ← Edit.query (·.get child)
  if node.type.isMapped then throw (.refused (.hierarchy (.ownedThroughMap child)))
  if node.parent = some parent then detach child
  else throw (.refused (.hierarchy (.notChild child parent)))

end IndexedEdit

end XmlTree
