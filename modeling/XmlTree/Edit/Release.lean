import XmlTree.Edit

/-!
# Release

Releasing a node empties its slot and the slots of everything it owns: children,
attributes and declarations, and what these own in turn.  An owned node is not
released on its own, and the built-in declaration not at all.

`sweep` empties slots from a list of identities that are still to be released.
Every slot that it empties makes the table poorer by one node, so it comes to an
end whatever the lists in the arena say.
-/

namespace XmlTree

namespace Arena

/-- The number of slots that hold a node. -/
def occupied (a : Arena) : Nat := a.slots.countP Option.isSome

/-- An emptied slot is one node less. -/
theorem occupied_vacate {a : Arena} {id : NodeId} {node : Node} (found : a.find? id = some node) :
    (a.vacate id).occupied + 1 = a.occupied := by
  obtain ⟨inside, holds⟩ : ∃ inside : id.index < a.slots.size, a.slots[id.index] = some node := by
    rw [find?, Option.join_eq_some_iff] at found
    exact Array.getElem?_eq_some_iff.1 found
  have positive : 0 < a.slots.countP Option.isSome :=
    Array.countP_pos_iff.2 ⟨_, Array.getElem_mem inside, by rw [holds]; rfl⟩
  have less : (a.vacate id).occupied = a.slots.countP Option.isSome - 1 := by
    rw [occupied, vacate, Array.setIfInBounds, dif_pos inside, Array.countP_set, holds]
    rfl
  rw [less, occupied]
  exact Nat.sub_add_cancel positive

/-- Empties the slots of the given identities and of everything they own. -/
def sweep (a : Arena) : List NodeId → Arena
  | [] => a
  | id :: rest =>
      match _h : a.find? id with
      | none => a.sweep rest
      | some node => (a.vacate id).sweep (node.kind.owned ++ rest)
termination_by work => (a.occupied, work.length)
decreasing_by
  · exact Prod.Lex.right _ (by simp)
  · exact Prod.Lex.left _ _ (Nat.lt_of_lt_of_eq (Nat.lt_succ_self _) (occupied_vacate ‹_›))

end Arena

namespace Edit

/-- Destroys a node without an owner, and everything it owns. -/
def release (id : NodeId) : Edit Unit := do
  if id = Arena.xmlDeclaration then throw (.hierarchy .builtInReleased)
  match ← query (·.parent id) with
  | some owner => throw (.hierarchy (.stillOwned id owner))
  | none => modify (·.sweep [id])

end Edit

end XmlTree
