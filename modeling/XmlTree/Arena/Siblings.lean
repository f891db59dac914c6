import XmlTree.Arena

/-!
# Siblings

The siblings of a child are the nodes in the child list it stands in.  A node
without an owner has none, and neither has an attribute or a declaration.
-/

namespace XmlTree.Arena

/-- The child list that a node stands in and its place there. -/
def placement (a : Arena) (id : NodeId) : Except TreeError (Option (List NodeId × Nat)) := do
  let node ← a.get id
  match node.parent with
  | none => return none
  | some owner =>
      if node.type.isMapped then return none
      let siblings ← a.children owner
      match siblings.idxOf? id with
      | some position => return some (siblings, position)
      | none => throw (.lost id owner)

/-- The sibling right before a node. -/
def precedingSibling (a : Arena) (id : NodeId) : Except TreeError (Option NodeId) := do
  match ← a.placement id with
  | some (siblings, position + 1) => return siblings[position]?
  | _ => return none

/-- The sibling right after a node. -/
def followingSibling (a : Arena) (id : NodeId) : Except TreeError (Option NodeId) := do
  match ← a.placement id with
  | some (siblings, position) => return siblings[position + 1]?
  | none => return none

end XmlTree.Arena
