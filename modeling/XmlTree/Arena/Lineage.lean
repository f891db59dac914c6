import XmlTree.Arena

/-!
# Lineages

The lineage of a node is the node, its owner, the owner's owner and so on.  It
ends at a node without an owner, or at an identity that no slot holds.  Reading
it once gives everything that is asked on the way up: the root, the depth, the
ancestors, and the path from the root down.

A lineage in a sound arena is never longer than the slot table, so the climb is
given one step for each slot and one more.  A climb that uses them all up runs in
a circle; it is cut off there and counts as leading nowhere.
-/

namespace XmlTree

/-- A climb from a node to the end of its chain of owners. -/
inductive Lineage where
  /-- The climb ends at a node without an owner. -/
  | top (id : NodeId) (node : Node)
  /-- The climb ends at an identity that no slot holds. -/
  | missing (id : NodeId)
  /-- A node and the lineage of its owner. -/
  | step (id : NodeId) (node : Node) (above : Lineage)

namespace Lineage

/-- The identity a lineage starts at. -/
def first : Lineage → NodeId
  | top id _ | missing id | step id _ _ => id

/-- All identities of a lineage, from the bottom up. -/
def ids : Lineage → List NodeId
  | top id _ | missing id => [id]
  | step id _ above => id :: above.ids

/-- Whether an identity is on a lineage. -/
def contains (lineage : Lineage) (id : NodeId) : Bool :=
  match lineage with
  | top first _ | missing first => first == id
  | step first _ above => first == id || above.contains id

theorem contains_iff {lineage : Lineage} {id : NodeId} :
    lineage.contains id = true ↔ id ∈ lineage.ids := by
  induction lineage with
  | top first node => rw [contains, ids, List.mem_singleton, beq_iff_eq, eq_comm]
  | missing first => rw [contains, ids, List.mem_singleton, beq_iff_eq, eq_comm]
  | step first node above ih =>
    rw [contains, ids, List.mem_cons, Bool.or_eq_true, beq_iff_eq, ih, eq_comm]

/-- The identities above the first one. -/
def ancestors : Lineage → List NodeId
  | top _ _ | missing _ => []
  | step _ _ above => above.ids

/-- Where a climb came to its end. -/
structure Summit where
  /-- The identity of the root. -/
  root : NodeId
  /-- The root itself. -/
  node : Node
  /-- The number of parent steps up to it. -/
  depth : Nat

/-- The end of a lineage.  A lineage that leads nowhere fails. -/
def summit : Lineage → Except TreeError Summit
  | top id node => .ok ⟨id, node, 0⟩
  | missing id => .error (.notFound id)
  | step _ _ above => do
      let end_ ← above.summit
      return { end_ with depth := end_.depth + 1 }

end Lineage

namespace Arena

/-- The lineage of `id`, cut off after `fuel` identities. -/
def lineageWithin (a : Arena) : (fuel : Nat) → NodeId → Lineage
  | 0, id => .missing id
  | fuel + 1, id =>
      match a.find? id with
      | none => .missing id
      | some node =>
          match node.parent with
          | none => .top id node
          | some owner => .step id node (a.lineageWithin fuel owner)

/-- The lineage of `id`. -/
def lineage (a : Arena) (id : NodeId) : Lineage := a.lineageWithin (a.slots.size + 1) id

/-- The owners above a node, nearest first.  An unknown node has none. -/
def ancestors (a : Arena) (id : NodeId) : List NodeId := (a.lineage id).ancestors

/-- The top of the tree that a node belongs to. -/
def root (a : Arena) (id : NodeId) : Except TreeError NodeId :=
  return (← (a.lineage id).summit).root

/-- The number of parent steps from a node to its root. -/
def depth (a : Arena) (id : NodeId) : Except TreeError Nat :=
  return (← (a.lineage id).summit).depth

end Arena

end XmlTree
