import Mathlib.Data.List.Induction
import XmlTree.Arena.Siblings
import XmlTree.Proofs.Failure.Questions
import XmlTree.Proofs.Views

/-!
# Walking along siblings

At every step from sibling to sibling the node is looked up anew in the list of its owner.  In
a sound arena it stands there once, so the list falls into what comes before the node and what
comes after it.  The one sibling is the last of the former, the other the first of the latter
(`precedingSibling_of_append`, `followingSibling_of_append`).

Two nodes are siblings of each other exactly if they stand side by side in a child list
(`Adjacent`), whichever of the two is asked.  Of what an owner lists, the earlier comes first in
document order (`Sound.pairwise_compareOrder`), so nothing with that owner comes between them.
A `Walk` from one end of a child list goes through the whole list and stops.
-/

namespace XmlTree

/-- Asking for the next node again and again, up to a node that has none. -/
inductive Walk (next : NodeId → Except TreeError (Option NodeId)) : NodeId → List NodeId → Prop
  /-- The node has no next one. -/
  | stop {x : NodeId} (ends : next x = .ok none) : Walk next x [x]
  /-- The walk goes on from the next node. -/
  | step {x y : NodeId} {ids : List NodeId} (onward : next x = .ok (some y))
      (rest : Walk next y ids) : Walk next x (x :: ids)

/-- From one node there is only one walk. -/
theorem Walk.unique {next : NodeId → Except TreeError (Option NodeId)} {x : NodeId}
    {ids ids' : List NodeId} (walk : Walk next x ids) (walk' : Walk next x ids') : ids' = ids := by
  induction walk generalizing ids' with
  | stop ends =>
    cases walk' with
    | stop => rfl
    | step onward => cases ends.symm.trans onward
  | step onward _ ih =>
    cases walk' with
    | stop ends => cases ends.symm.trans onward
    | step onward' rest =>
      cases onward.symm.trans onward'
      rw [ih rest]

theorem NodeType.isMapped_of_isChild {type : NodeType} (child : type.isChild = true) :
    type.isMapped = false := by
  cases type <;> first | rfl | cases child

namespace Arena

variable {a : Arena} {config : Config} {owner x y z : NodeId} {before after : List NodeId}
variable {node : Node}

/-! ## The place of a node -/

theorem mem_childrenAt_of_append (parts : a.childrenAt owner = before ++ x :: after) :
    x ∈ a.childrenAt owner :=
  parts ▸ List.mem_append_right _ List.mem_cons_self

theorem Consistent.refers_of_mem (h : a.Consistent) (listed : x ∈ a.childrenAt owner) :
    a.Refers owner x := by
  have lists : a.Lists owner .child x := listed
  obtain ⟨kind, found, placed⟩ := h.find?_of_lists lists
  exact ⟨_, found, NodeType.isMapped_of_isChild (NodeKind.place?_eq_child_iff.1 placed), rfl⟩

/-- A child is found where it stands. -/
theorem Consistent.placement_of_append (h : a.Consistent)
    (parts : a.childrenAt owner = before ++ x :: after) :
    a.placement x = .ok (some (before ++ x :: after, before.length)) := by
  obtain ⟨node, found, unmapped, owned⟩ := h.refers_of_mem (mem_childrenAt_of_append parts)
  have container := h.isContainer_of_owner? ((owner?_of_find? found).trans owned)
  have siblings := children_of_isContainer container
  have distinct := h.distinct owner
  rw [parts] at siblings distinct
  have first : x ∉ before := fun member =>
    (List.nodup_append.1 distinct).2.2 x member x List.mem_cons_self rfl
  simp only [placement, get_of_find? found, owned, unmapped, siblings, idxOf?_append_cons first,
    Bind.bind, Except.bind, Pure.pure, Except.pure, Bool.false_eq_true, if_false]

/-- Attributes, declarations and nodes without an owner stand in no child list. -/
theorem placement_of_aside (found : a.find? x = some node)
    (aside : node.type.isMapped = true ∨ node.parent = none) : a.placement x = .ok none := by
  cases owned : node.parent with
  | none =>
    simp only [placement, get_of_find? found, owned, Bind.bind, Except.bind, Pure.pure, Except.pure]
  | some owner =>
    have mapped := aside.resolve_right (owned ▸ Option.some_ne_none owner)
    simp only [placement, get_of_find? found, owned, mapped, Bind.bind, Except.bind, Pure.pure,
      Except.pure, if_true]

/-- A live node stands in a child list or in none. -/
theorem Consistent.placement_cases (h : a.Consistent) (found : a.find? x = some node) :
    (∃ owner before after, a.childrenAt owner = before ++ x :: after) ∨
      node.type.isMapped = true ∨ node.parent = none := by
  cases owned : node.parent with
  | none => exact .inr (.inr rfl)
  | some owner =>
    cases mapped : node.type.isMapped with
    | true => exact .inr (.inl rfl)
    | false =>
      have listed : x ∈ a.childrenAt owner := h.mem_childrenAt_iff.2
        ⟨(owner?_of_find? found).trans owned, listed_of_parent h found mapped owned⟩
      obtain ⟨before, after, parts⟩ := List.append_of_mem listed
      exact .inl ⟨owner, before, after, parts⟩

/-! ## The siblings of a node -/

/-- The sibling after a child is the next in the list. -/
theorem Consistent.followingSibling_of_append (h : a.Consistent)
    (parts : a.childrenAt owner = before ++ x :: after) :
    a.followingSibling x = .ok after.head? := by
  rw [followingSibling, h.placement_of_append parts]
  show Except.ok ((before ++ x :: after)[before.length + 1]?) = _
  rw [List.getElem?_append_right (Nat.le_add_right _ 1), Nat.add_sub_cancel_left,
    List.getElem?_cons_succ, ← List.head?_eq_getElem?]

/-- The sibling before a child is the previous one in the list. -/
theorem Consistent.precedingSibling_of_append (h : a.Consistent)
    (parts : a.childrenAt owner = before ++ x :: after) :
    a.precedingSibling x = .ok before.getLast? := by
  rw [precedingSibling, h.placement_of_append parts]
  rcases List.eq_nil_or_concat' before with rfl | ⟨front, last, rfl⟩
  · rfl
  · rw [List.length_append]
    show Except.ok (((front ++ [last]) ++ x :: after)[front.length]?) = _
    rw [List.append_assoc, List.singleton_append, List.getElem?_append_right (Nat.le_refl _),
      Nat.sub_self, List.getElem?_cons_zero, List.getLast?_concat]

theorem siblings_of_aside (found : a.find? x = some node)
    (aside : node.type.isMapped = true ∨ node.parent = none) :
    a.followingSibling x = .ok none ∧ a.precedingSibling x = .ok none := by
  rw [followingSibling, precedingSibling, placement_of_aside found aside]
  exact ⟨rfl, rfl⟩

/-- Only what stands in a child list has siblings. -/
theorem Consistent.exists_append_of_sibling (h : a.Consistent)
    (sibling : a.followingSibling x = .ok (some y) ∨ a.precedingSibling x = .ok (some y)) :
    ∃ owner before after, a.childrenAt owner = before ++ x :: after := by
  cases found : a.find? x with
  | none =>
    rw [followingSibling, precedingSibling, placement, get_of_not_find? found] at sibling
    rcases sibling with next | previous
    · cases next
    · cases previous
  | some node =>
    rcases h.placement_cases found with listed | aside
    · exact listed
    · obtain ⟨noNext, noPrevious⟩ := siblings_of_aside found aside
      rcases sibling with next | previous
      · cases noNext.symm.trans next
      · cases noPrevious.symm.trans previous

/-- One node comes right after another in a child list. -/
def Adjacent (a : Arena) (owner x y : NodeId) : Prop :=
  ∃ before after, a.childrenAt owner = before ++ x :: y :: after

theorem Adjacent.mem (adjacent : a.Adjacent owner x y) :
    x ∈ a.childrenAt owner ∧ y ∈ a.childrenAt owner := by
  obtain ⟨before, after, parts⟩ := adjacent
  exact ⟨by simp [parts], by simp [parts]⟩

theorem Adjacent.exists_below (adjacent : a.Adjacent owner x y) :
    ∃ before after, a.below owner = before ++ x :: y :: after := by
  obtain ⟨before, after, parts⟩ := adjacent
  exact ⟨_, after, by rw [below, parts, ← List.append_assoc]⟩

theorem Consistent.followingSibling_eq_some_iff (h : a.Consistent) :
    a.followingSibling x = .ok (some y) ↔ ∃ owner, a.Adjacent owner x y := by
  constructor
  · intro next
    obtain ⟨owner, before, after, parts⟩ := h.exists_append_of_sibling (.inl next)
    rw [h.followingSibling_of_append parts, Except.ok.injEq] at next
    obtain ⟨rest, rfl⟩ := List.head?_eq_some_iff.1 next
    exact ⟨owner, before, rest, parts⟩
  · intro ⟨owner, before, after, parts⟩
    exact h.followingSibling_of_append parts

theorem Consistent.precedingSibling_eq_some_iff (h : a.Consistent) :
    a.precedingSibling y = .ok (some x) ↔ ∃ owner, a.Adjacent owner x y := by
  constructor
  · intro previous
    obtain ⟨owner, before, after, parts⟩ := h.exists_append_of_sibling (.inr previous)
    rw [h.precedingSibling_of_append parts, Except.ok.injEq] at previous
    obtain ⟨front, rfl⟩ := List.getLast?_eq_some_iff.1 previous
    exact ⟨owner, front, after, by rw [parts, List.append_assoc, List.singleton_append]⟩
  · intro ⟨owner, before, after, parts⟩
    rw [List.append_cons] at parts
    rw [h.precedingSibling_of_append parts, List.getLast?_concat]

/-! ## Document order below one owner -/

/-- Of two nodes that one owner lists, the one that is listed first comes first, with all
that is below it. -/
theorem Sound.compareOrder_of_ranksBefore (h : a.Sound) (ranks : a.RanksBefore owner x y)
    (ownedX : a.Owns owner x) (ownedY : a.Owns owner y) {v w : NodeId}
    (aboveV : x ∈ v :: a.ancestors v) (aboveW : y ∈ w :: a.ancestors w) :
    a.compareOrder v w = .ok (some .lt) := by
  obtain ⟨xs, wayX⟩ := exists_wayDown_of_reaches ((mem_cons_ancestors_iff h.founded).1 aboveV)
  obtain ⟨ys, wayY⟩ := exists_wayDown_of_reaches ((mem_cons_ancestors_iff h.founded).1 aboveW)
  obtain ⟨_, way⟩ := h.exists_descent (contains_iff.2 (h.exists_find?_owner ownedX))
  exact compareOrder_of_wayDown h.founded way (.down ownedX wayX) (.down ownedY wayY)
    (compareSteps_of_ranksBefore ranks)

theorem Sound.pairwise_compareOrder (h : a.Sound) (owner : NodeId) :
    (a.below owner).Pairwise fun x y => a.compareOrder x y = .ok (some .lt) :=
  (h.pairwise_below owner).imp_of_mem fun listedX listedY ranks =>
    h.compareOrder_of_ranksBefore ranks (h.mem_below_iff.1 listedX) (h.mem_below_iff.1 listedY)
      List.mem_cons_self List.mem_cons_self

/-- Two nodes are not before each other. -/
theorem not_compareOrder_of_swap (less : a.compareOrder y x = .ok (some .lt)) :
    a.compareOrder x y ≠ .ok (some .lt) := by
  rw [compareOrder_swap less]
  exact nofun

/-- Between two siblings side by side there is nothing with their owner. -/
theorem Sound.not_between (h : a.Sound) (adjacent : a.Adjacent owner x y) (owned : a.Owns owner z) :
    ¬ (a.compareOrder x z = .ok (some .lt) ∧ a.compareOrder z y = .ok (some .lt)) := by
  intro ⟨afterX, beforeY⟩
  obtain ⟨before, after, parts⟩ := adjacent.exists_below
  have order := h.pairwise_compareOrder owner
  have listed := h.mem_below_iff.2 owned
  rw [parts] at order listed
  rw [List.pairwise_append, List.pairwise_cons, List.pairwise_cons] at order
  obtain ⟨-, ⟨-, afterY, -⟩, acrossX⟩ := order
  rcases List.mem_append.1 listed with earlier | later
  · exact not_compareOrder_of_swap (acrossX z earlier x List.mem_cons_self) afterX
  · rcases List.mem_cons.1 later with rfl | later
    · exact ne_of_compareOrder afterX rfl
    · rcases List.mem_cons.1 later with rfl | later
      · exact ne_of_compareOrder beforeY rfl
      · exact not_compareOrder_of_swap (afterY z later) beforeY

theorem Sound.compareOrder_of_adjacent (h : a.Sound) (adjacent : a.Adjacent owner x y) :
    a.compareOrder x y = .ok (some .lt) := by
  obtain ⟨before, after, parts⟩ := adjacent.exists_below
  have order := h.pairwise_compareOrder owner
  rw [parts, List.pairwise_append, List.pairwise_cons] at order
  exact order.2.1.1 y List.mem_cons_self

/-! ## Walks through a child list -/

theorem Consistent.walk_followingSibling (h : a.Consistent)
    (parts : a.childrenAt owner = before ++ x :: after) :
    Walk a.followingSibling x (x :: after) := by
  have next := h.followingSibling_of_append parts
  induction after generalizing before x with
  | nil => exact .stop next
  | cons y rest ih =>
    rw [List.append_cons] at parts
    exact .step next (ih parts (h.followingSibling_of_append parts))

theorem Consistent.walk_precedingSibling (h : a.Consistent)
    (parts : a.childrenAt owner = before ++ x :: after) :
    Walk a.precedingSibling x (x :: before.reverse) := by
  have previous := h.precedingSibling_of_append parts
  induction before using List.reverseRecOn generalizing x after with
  | nil => exact .stop previous
  | append_singleton front y ih =>
    rw [List.getLast?_concat] at previous
    rw [List.append_assoc, List.singleton_append] at parts
    rw [List.reverse_concat]
    exact .step previous (ih parts (h.precedingSibling_of_append parts))

/-! ## The laws of siblings -/

/-- What siblings, child lists and document order have to do with each other. -/
structure SiblingLaws (a : Arena) : Prop where
  /-- A live node is told its siblings, or that it has none. -/
  answers : ∀ x, a.contains x = true →
    (∃ next, a.followingSibling x = .ok next) ∧ ∃ previous, a.precedingSibling x = .ok previous
  /-- A node follows another exactly if that one precedes it. -/
  inverse : ∀ x y, a.followingSibling x = .ok (some y) ↔ a.precedingSibling y = .ok (some x)
  /-- The two then have one parent.  The first comes first in document order, and nothing that
  has this parent comes between them. -/
  adjacent : ∀ x y, a.followingSibling x = .ok (some y) → ∃ owner,
    a.parent x = .ok (some owner) ∧ a.parent y = .ok (some owner) ∧
      a.compareOrder x y = .ok (some .lt) ∧
        ∀ z, a.parent z = .ok (some owner) →
          ¬ (a.compareOrder x z = .ok (some .lt) ∧ a.compareOrder z y = .ok (some .lt))
  /-- From the first child the following siblings are the child list, and then there is none. -/
  forwards : ∀ owner ids first, a.children owner = .ok ids → ids.head? = some first →
    ∀ visited, Walk a.followingSibling first visited ↔ visited = ids
  /-- From the last child the preceding siblings are the child list backwards, and then there is
  none. -/
  backwards : ∀ owner ids last, a.children owner = .ok ids → ids.getLast? = some last →
    ∀ visited, Walk a.precedingSibling last visited ↔ visited = ids.reverse
  /-- Attributes, declarations and nodes without a parent have no siblings. -/
  aside : ∀ x node, a.find? x = some node → node.type.isMapped = true ∨ node.parent = none →
    a.followingSibling x = .ok none ∧ a.precedingSibling x = .ok none

theorem childrenAt_of_children {ids : List NodeId} (listed : a.children owner = .ok ids) :
    a.childrenAt owner = ids := by
  obtain ⟨node, live, _⟩ := bind_eq_ok_iff.1 listed
  have answer := children_of_contains (contains_iff.2 ⟨node, get_eq_ok_iff.1 live⟩)
  exact Except.ok.inj (answer.symm.trans listed)

/-- In every reachable arena sibling by sibling is child by child. -/
theorem Reachable.siblingLaws (reachable : Reachable config a) : a.SiblingLaws where
  answers x live := by
    have h := reachable.sound.toConsistent
    obtain ⟨node, found⟩ := contains_iff.1 live
    rcases h.placement_cases found with ⟨owner, before, after, parts⟩ | aside
    · exact ⟨⟨_, h.followingSibling_of_append parts⟩, _, h.precedingSibling_of_append parts⟩
    · obtain ⟨next, previous⟩ := siblings_of_aside found aside
      exact ⟨⟨_, next⟩, _, previous⟩
  inverse x y := by
    have h := reachable.sound.toConsistent
    rw [h.followingSibling_eq_some_iff, h.precedingSibling_eq_some_iff]
  adjacent x y next := by
    have h := reachable.sound
    obtain ⟨owner, adjacent⟩ := h.followingSibling_eq_some_iff.1 next
    obtain ⟨listedX, listedY⟩ := adjacent.mem
    exact ⟨owner, parent_eq_some_iff.2 (h.mem_childrenAt_iff.1 listedX).1,
      parent_eq_some_iff.2 (h.mem_childrenAt_iff.1 listedY).1, h.compareOrder_of_adjacent adjacent,
      fun z owned => h.not_between adjacent (parent_eq_some_iff.1 owned)⟩
  forwards owner ids first listed head visited := by
    obtain ⟨rest, rfl⟩ := List.head?_eq_some_iff.1 head
    have parts : a.childrenAt owner = [] ++ first :: rest := childrenAt_of_children listed
    have walk := reachable.sound.walk_followingSibling parts
    exact ⟨walk.unique, fun same => same ▸ walk⟩
  backwards owner ids last listed atEnd visited := by
    obtain ⟨front, rfl⟩ := List.getLast?_eq_some_iff.1 atEnd
    have walk := reachable.sound.walk_precedingSibling (childrenAt_of_children listed)
    rw [List.reverse_concat]
    exact ⟨walk.unique, fun same => same ▸ walk⟩
  aside x node found aside := siblings_of_aside found aside

/-- The laws hold in a list after a move to its front, a removal from its middle and an insertion
that was refused, beside an attribute and a declaration. -/
theorem siblingLaws_of_moves : ((Session.start {}).runAll
    [.createDocument none, .createElement none "r", .appendChild ⟨1⟩ ⟨2⟩, .createElement none "a",
      .createText "t", .createComment "c", .createElement none "b", .appendChild ⟨2⟩ ⟨3⟩,
      .appendChild ⟨2⟩ ⟨4⟩, .appendChild ⟨2⟩ ⟨5⟩, .appendChild ⟨2⟩ ⟨6⟩, .insertBefore ⟨2⟩ ⟨6⟩ ⟨3⟩,
      .removeChild ⟨2⟩ ⟨4⟩, .appendChild ⟨6⟩ ⟨2⟩, .addAttribute ⟨2⟩ none "k" "k" "v",
      .addNamespace ⟨2⟩ (some "p") "u"]).arena.SiblingLaws :=
  Reachable.siblingLaws (Reachable.runAll (s := .start {}) .empty _)

end Arena

end XmlTree
