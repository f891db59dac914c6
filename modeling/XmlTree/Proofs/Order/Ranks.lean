import Mathlib.Order.Compare
import XmlTree.Arena.Order
import XmlTree.Proofs.Answer
import XmlTree.Proofs.Ownership.Place

/-!
# Ranks

The order of ranks is total: by tier, then by position.  A rank says where a node
stands in the lists of its owner (`Node.entry?`), so two nodes with one rank below one
owner are the same node (`siblingRank_inj`).  This needs nothing of the lists.  They may
repeat a node or name one that belongs elsewhere.
-/

namespace XmlTree

/-! ## The order of ranks -/

namespace SiblingRank

theorem ext_tier {x y : SiblingRank} (tiers : x.tier = y.tier)
    (positions : x.position = y.position) : x = y := by
  cases x <;> cases y <;> first | cases positions; rfl | cases tiers

instance : Std.TransCmp SiblingRank.compare :=
  inferInstanceAs (Std.TransCmp (compareLex (compareOn tier) (compareOn position)))

instance : Std.LawfulEqCmp SiblingRank.compare where
  eq_of_compare {x y} same := by
    rw [compare, Ordering.then_eq_eq, Nat.compare_eq_eq, Nat.compare_eq_eq] at same
    exact ext_tier same.1 same.2

theorem compare_eq_lt_iff {x y : SiblingRank} : x.compare y = .lt ↔
    x.tier < y.tier ∨ x.tier = y.tier ∧ x.position < y.position := by
  rw [compare, Ordering.then_eq_lt, Nat.compare_eq_lt, Nat.compare_eq_eq, Nat.compare_eq_lt]

end SiblingRank

/-! ## Ranks and lists -/

/-- A key stands where its value stands. -/
theorem OrderedMap.getElem?_values_of_position? {κ ν : Type} [DecidableEq κ] {m : OrderedMap κ ν}
    {key : κ} {value : ν} {i : Nat} (found : m.get? key = some value)
    (place : m.position? key = some i) : m.values[i]? = some value := by
  rw [get?_eq_bind_position?, place] at found
  exact found

/-- The identity that an owner lists at a rank. -/
def Node.entry? (owner : Node) : SiblingRank → Option NodeId
  | .declaration i => owner.element?.bind fun data => data.declarations.values[i]?
  | .attr i => owner.element?.bind fun data => data.attributes.values[i]?
  | .child i => owner.children[i]?

namespace Arena

variable {a : Arena} {owner x y : NodeId} {r s : SiblingRank}

/-- A node with a rank is listed there. -/
theorem entry?_of_listedRank? {node ownerNode : Node}
    (ranked : listedRank? x node ownerNode = some r) : ownerNode.entry? r = some x := by
  obtain ⟨_, _, kind⟩ := ownerNode
  rw [listedRank?] at ranked
  split at ranked
  next data element _ here =>
    split at ranked
    next found =>
      obtain ⟨i, place, rfl⟩ := Option.map_eq_some_iff.1 ranked
      cases here
      exact OrderedMap.getElem?_values_of_position? found place
    next => cases ranked
  next data element _ here =>
    split at ranked
    next found =>
      obtain ⟨i, place, rfl⟩ := Option.map_eq_some_iff.1 ranked
      cases here
      exact OrderedMap.getElem?_values_of_position? found place
    next => cases ranked
  next =>
    obtain ⟨i, place, rfl⟩ := Option.map_eq_some_iff.1 ranked
    obtain ⟨inside, same, _⟩ := List.idxOf?_eq_some_iff.1 place
    exact List.getElem?_eq_some_iff.2 ⟨inside, same⟩

theorem siblingRank_eq_ok_iff : a.siblingRank owner x = .ok r ↔ ∃ ownerNode node,
    a.find? owner = some ownerNode ∧ a.find? x = some node ∧
      listedRank? x node ownerNode = some r := by
  rw [siblingRank]
  simp only [bind_eq_ok_iff, get_eq_ok_iff]
  constructor
  · intro ⟨ownerNode, foundOwner, node, found, ranked⟩
    cases listed : listedRank? x node ownerNode with
    | none => rw [listed] at ranked; cases ranked
    | some rank =>
      rw [listed] at ranked
      cases ranked
      exact ⟨ownerNode, node, foundOwner, found, listed⟩
  · intro ⟨ownerNode, node, foundOwner, found, ranked⟩
    refine ⟨ownerNode, foundOwner, node, found, ?_⟩
    rw [ranked]
    rfl

/-- Nodes of one rank below one owner are the same node. -/
theorem siblingRank_inj (rankX : a.siblingRank owner x = .ok r)
    (rankY : a.siblingRank owner y = .ok r) : x = y := by
  obtain ⟨ownerNode, nodeX, foundOwner, _, listedX⟩ := siblingRank_eq_ok_iff.1 rankX
  obtain ⟨ownerNode', nodeY, foundOwner', _, listedY⟩ := siblingRank_eq_ok_iff.1 rankY
  cases foundOwner.symm.trans foundOwner'
  exact Option.some.inj ((entry?_of_listedRank? listedX).symm.trans (entry?_of_listedRank? listedY))

theorem eq_of_compare_siblingRank (rankX : a.siblingRank owner x = .ok r)
    (rankY : a.siblingRank owner y = .ok s) (equal : r.compare s = .eq) : x = y := by
  cases Std.LawfulEqCmp.eq_of_compare equal
  exact siblingRank_inj rankX rankY

theorem ne_of_compare_siblingRank (rankX : a.siblingRank owner x = .ok r)
    (rankY : a.siblingRank owner y = .ok s) (less : r.compare s = .lt) : x ≠ y := by
  intro same
  subst same
  cases rankX.symm.trans rankY
  have itself : r.compare r = .eq := Std.ReflCmp.compare_self
  rw [itself] at less
  cases less

end Arena

end XmlTree
