import XmlTree.Proofs.Order.Laws
import XmlTree.Proofs.Ownership.Consistent

/-!
# Siblings in order

What a node owns is listed below it: its declarations, its attributes and its
children (`below`).  In a consistent arena everything that is owned has a rank, and the
ranks go up along that list (`pairwise_below`).
-/

namespace XmlTree

variable {a : Arena} {owner x y : NodeId}

namespace Arena

/-- What an owner lists, in document order. -/
def below (a : Arena) (owner : NodeId) : List NodeId :=
  (a.shelfAt .declarations owner).values ++ (a.shelfAt .attributes owner).values
    ++ a.childrenAt owner

theorem mem_below_iff_exists_lists : x ∈ a.below owner ↔ ∃ place, a.Lists owner place x := by
  rw [below, List.mem_append, List.mem_append, OrderedMap.mem_values_iff, OrderedMap.mem_values_iff]
  constructor
  · rintro ((⟨nsPrefix, entry⟩ | ⟨name, entry⟩) | child)
    · exact ⟨.declaration nsPrefix, entry⟩
    · exact ⟨.attr name, entry⟩
    · exact ⟨.child, child⟩
  · intro ⟨place, listed⟩
    cases place with
    | child => exact Or.inr listed
    | attr name => exact Or.inl (Or.inr ⟨name, listed⟩)
    | declaration nsPrefix => exact Or.inl (Or.inl ⟨nsPrefix, listed⟩)

/-- A node lists what names it as its owner. -/
theorem Consistent.mem_below_iff (h : a.Consistent) :
    x ∈ a.below owner ↔ a.owner? x = some owner := by
  rw [mem_below_iff_exists_lists]
  constructor
  · intro ⟨place, listed⟩
    exact (h.lists_iff.1 listed).1
  · exact fun owned => (h.settled x).owned owned

end Arena

/-! ## The rank in each list -/

/-- What an element files on a shelf ranks by its place in the map, and all of it ranks in
one tier. -/
structure Shelf.Ranked {κ : Type} [DecidableEq κ] (shelf : Shelf κ) (file : κ → Place)
    (rank : Nat → SiblingRank) : Prop where
  /-- The rank of an entry is its place in the map. -/
  listedRank? : ∀ {id : NodeId} {key : κ} {node ownerNode : Node} {data : ElementData},
    node.kind.place? = some (file key) → ownerNode.element? = some data →
      (shelf.view data).get? key = some id →
        Arena.listedRank? id node ownerNode = ((shelf.view data).position? key).map rank
  /-- The shelf is one tier. -/
  tier : ∀ i j : Nat, (rank i).tier = (rank j).tier
  /-- Different places are different ranks. -/
  position : ∀ i : Nat, (rank i).position = i

namespace Shelf

theorem attributes_ranked : attributes.Ranked .attr .attr where
  listedRank? {id key node ownerNode data} placed element entry := by
    obtain ⟨_, _, kind⟩ := node
    obtain ⟨_, _, ownerKind⟩ := ownerNode
    cases ownerKind with
    | element data' =>
      cases element
      cases kind with
      | attr filed =>
        cases placed
        exact if_pos entry
      | _ => cases placed
    | _ => cases element
  tier _ _ := rfl
  position _ := rfl

theorem declarations_ranked : declarations.Ranked .declaration .declaration where
  listedRank? {id key node ownerNode data} placed element entry := by
    obtain ⟨_, _, kind⟩ := node
    obtain ⟨_, _, ownerKind⟩ := ownerNode
    cases ownerKind with
    | element data' =>
      cases element
      cases kind with
      | namespaceDecl filed =>
        cases placed
        exact if_pos entry
      | _ => cases placed
    | _ => cases element
  tier _ _ := rfl
  position _ := rfl

end Shelf

namespace Arena

section File

variable {κ : Type} [DecidableEq κ] {shelf : Shelf κ} {file : κ → Place} {rank : Nat → SiblingRank}

theorem Consistent.siblingRank_of_file (h : a.Consistent) (laws : shelf.Lawful file)
    (ranked : shelf.Ranked file rank) {key : κ} {i : Nat}
    (entry : (a.shelfAt shelf owner).get? key = some x)
    (place : (a.shelfAt shelf owner).position? key = some i) :
    a.siblingRank owner x = .ok (rank i) := by
  obtain ⟨kind, found, placed⟩ := h.find?_of_lists (laws.lists_iff.2 entry)
  obtain ⟨data, holds⟩ := exists_element?_of_get?_shelfAt entry
  obtain ⟨ownerNode, foundOwner, element⟩ := exists_find?_of_element? holds
  rw [shelfAt_of_element? shelf holds] at entry place
  refine siblingRank_eq_ok_iff.2 ⟨_, _, foundOwner, found, ?_⟩
  rw [ranked.listedRank? placed element entry, place, Option.map_some]

theorem Consistent.exists_siblingRank_of_file (h : a.Consistent) (laws : shelf.Lawful file)
    (ranked : shelf.Ranked file rank) (filed : x ∈ (a.shelfAt shelf owner).values) :
    ∃ i, a.siblingRank owner x = .ok (rank i) := by
  obtain ⟨key, entry⟩ := OrderedMap.mem_values_iff.1 filed
  obtain ⟨i, place⟩ := OrderedMap.exists_position?_of_get? entry
  exact ⟨i, h.siblingRank_of_file laws ranked entry place⟩

end File

namespace Consistent

theorem siblingRank_of_child (h : a.Consistent) {i : Nat}
    (place : (a.childrenAt owner).idxOf? x = some i) :
    a.siblingRank owner x = .ok (.child i) := by
  have listed : a.Lists owner .child x := by
    obtain ⟨inside, same, _⟩ := List.idxOf?_eq_some_iff.1 place
    exact same ▸ List.getElem_mem inside
  obtain ⟨kind, found, placed⟩ := h.find?_of_lists listed
  obtain ⟨ownerNode, foundOwner⟩ := exists_find?_of_lists listed
  rw [childrenAt_of_find? foundOwner] at place
  refine siblingRank_eq_ok_iff.2 ⟨_, _, foundOwner, found, ?_⟩
  cases kind with
  | element data => exact congrArg (Option.map SiblingRank.child) place
  | text value => exact congrArg (Option.map SiblingRank.child) place
  | comment value => exact congrArg (Option.map SiblingRank.child) place
  | _ => cases placed

theorem exists_siblingRank_of_child (h : a.Consistent) (listed : x ∈ a.childrenAt owner) :
    ∃ i, a.siblingRank owner x = .ok (.child i) := by
  obtain ⟨i, inside, same⟩ := List.getElem_of_mem listed
  have place := idxOf?_getElem (h.distinct owner) i inside
  rw [same] at place
  exact ⟨i, h.siblingRank_of_child place⟩

theorem exists_declarationRank (h : a.Consistent)
    (filed : x ∈ (a.shelfAt .declarations owner).values) :
    ∃ i, a.siblingRank owner x = .ok (.declaration i) :=
  h.exists_siblingRank_of_file Shelf.declarations_lawful Shelf.declarations_ranked filed

theorem exists_attributeRank (h : a.Consistent)
    (filed : x ∈ (a.shelfAt .attributes owner).values) :
    ∃ i, a.siblingRank owner x = .ok (.attr i) :=
  h.exists_siblingRank_of_file Shelf.attributes_lawful Shelf.attributes_ranked filed

/-- Whatever is owned has a rank below its owner. -/
theorem exists_siblingRank (h : a.Consistent) (owned : a.owner? x = some owner) :
    ∃ r, a.siblingRank owner x = .ok r := by
  obtain ⟨place, listed⟩ := (h.settled x).owned owned
  cases place with
  | child =>
    obtain ⟨i, rank⟩ := h.exists_siblingRank_of_child listed
    exact ⟨_, rank⟩
  | attr name =>
    obtain ⟨i, rank⟩ := h.exists_attributeRank (OrderedMap.mem_values_iff.2 ⟨name, listed⟩)
    exact ⟨_, rank⟩
  | declaration nsPrefix =>
    obtain ⟨i, rank⟩ := h.exists_declarationRank (OrderedMap.mem_values_iff.2 ⟨nsPrefix, listed⟩)
    exact ⟨_, rank⟩

end Consistent

/-! ## The ranks go up -/

/-- One node comes before another below their owner. -/
def RanksBefore (a : Arena) (owner x y : NodeId) : Prop := ∃ r s,
  a.siblingRank owner x = .ok r ∧ a.siblingRank owner y = .ok s ∧ r.compare s = .lt

theorem ranksBefore_of_tier {r s : SiblingRank} (rankX : a.siblingRank owner x = .ok r)
    (rankY : a.siblingRank owner y = .ok s) (tiers : r.tier < s.tier) : a.RanksBefore owner x y :=
  ⟨r, s, rankX, rankY, SiblingRank.compare_eq_lt_iff.2 (Or.inl tiers)⟩

/-- Ranks go up along a shelf. -/
theorem Consistent.pairwise_shelfAt {κ : Type} [DecidableEq κ] {shelf : Shelf κ} {file : κ → Place}
    {rank : Nat → SiblingRank} (h : a.Consistent) (laws : shelf.Lawful file)
    (ranked : shelf.Ranked file rank) (owner : NodeId) :
    (a.shelfAt shelf owner).values.Pairwise (a.RanksBefore owner) := by
  rw [OrderedMap.values, List.pairwise_map]
  refine List.Pairwise.imp_of_mem ?_ (a.shelfAt shelf owner).pairwise_position?
  intro e e' member member' places
  obtain ⟨i, j, place, place', less⟩ := places
  have rankI := h.siblingRank_of_file laws ranked (OrderedMap.mem_entries_iff.1 member) place
  have rankJ := h.siblingRank_of_file laws ranked (OrderedMap.mem_entries_iff.1 member') place'
  refine ⟨rank i, rank j, rankI, rankJ, SiblingRank.compare_eq_lt_iff.2 (Or.inr ⟨?_, ?_⟩)⟩
  · exact ranked.tier i j
  · rw [ranked.position, ranked.position]
    exact less

theorem Consistent.pairwise_childrenAt (h : a.Consistent) (owner : NodeId) :
    (a.childrenAt owner).Pairwise (a.RanksBefore owner) := by
  rw [List.pairwise_iff_getElem]
  intro i j hi hj less
  have rankI := h.siblingRank_of_child (idxOf?_getElem (h.distinct owner) i hi)
  have rankJ := h.siblingRank_of_child (idxOf?_getElem (h.distinct owner) j hj)
  exact ⟨_, _, rankI, rankJ, SiblingRank.compare_eq_lt_iff.2 (Or.inr ⟨rfl, less⟩)⟩

/-- Ranks go up along what an owner lists. -/
theorem Consistent.pairwise_below (h : a.Consistent) (owner : NodeId) :
    (a.below owner).Pairwise (a.RanksBefore owner) := by
  rw [below, List.pairwise_append, List.pairwise_append]
  refine ⟨⟨?declarations, ?attributes, ?first⟩, h.pairwise_childrenAt owner, ?last⟩
  case declarations =>
    exact h.pairwise_shelfAt Shelf.declarations_lawful Shelf.declarations_ranked owner
  case attributes =>
    exact h.pairwise_shelfAt Shelf.attributes_lawful Shelf.attributes_ranked owner
  case first =>
    intro x declared y attributed
    obtain ⟨i, rankX⟩ := h.exists_declarationRank declared
    obtain ⟨j, rankY⟩ := h.exists_attributeRank attributed
    exact ranksBefore_of_tier rankX rankY Nat.zero_lt_one
  case last =>
    intro x filed y child
    obtain ⟨j, rankY⟩ := h.exists_siblingRank_of_child child
    rcases List.mem_append.1 filed with declared | attributed
    · obtain ⟨i, rankX⟩ := h.exists_declarationRank declared
      exact ranksBefore_of_tier rankX rankY Nat.zero_lt_two
    · obtain ⟨i, rankX⟩ := h.exists_attributeRank attributed
      exact ranksBefore_of_tier rankX rankY Nat.one_lt_two

theorem RanksBefore.ne (before : a.RanksBefore owner x y) : x ≠ y := by
  obtain ⟨r, s, rankX, rankY, less⟩ := before
  exact ne_of_compare_siblingRank rankX rankY less

/-- Nothing is listed twice. -/
theorem Consistent.nodup_below (h : a.Consistent) (owner : NodeId) : (a.below owner).Nodup :=
  (h.pairwise_below owner).imp RanksBefore.ne

/-- Ways over two siblings are compared as the siblings are. -/
theorem compareSteps_of_ranksBefore {xs ys : List NodeId} (before : a.RanksBefore owner x y) :
    a.compareSteps owner (x :: xs) (y :: ys) = .ok .lt := by
  have apart := before.ne
  obtain ⟨r, s, rankX, rankY, less⟩ := before
  exact (compareSteps_cons_eq_ok_iff apart).2 ⟨r, s, rankX, rankY, less⟩

end Arena

end XmlTree
