import XmlTree.Proofs.Ownership.Relink

/-!
# Consistent arenas

Ownership is recorded twice, by the owner that lists a node and by the node that
names its owner.  A node is *settled* when the two records agree: whoever lists it
is the owner it names and lists it in the place it asks for, and the owner it names
does list it.  An arena is *consistent* when every node is settled and the rest of
the table is in order.

`Consistent.lists_iff` puts the agreement into one equivalence.  A change that
only relinks nodes leaves identities, places and the count alone (`Relinks`), so
after such a change only the settling of the nodes it moved is left to prove
(`Consistent.of_relinks`).
-/

namespace XmlTree.Arena

variable {a a' : Arena} {id owner : NodeId} {place : Place}

/-! ## Agreement -/

/-- The two records of the ownership of a node agree. -/
structure Settled (a : Arena) (id : NodeId) : Prop where
  /-- Whoever lists the node is the owner it names, and lists it in its place. -/
  listed : ∀ {owner : NodeId} {place : Place}, a.Lists owner place id →
    a.owner? id = some owner ∧ a.place? id = some place
  /-- The owner that the node names lists it. -/
  owned : ∀ {owner : NodeId}, a.owner? id = some owner → ∃ place, a.Lists owner place id

/-- The table is in order: owners and lists agree, and so do identities and count. -/
structure Consistent (a : Arena) : Prop where
  /-- Slot 0 holds the built-in declaration. -/
  builtIn : a.find? xmlDeclaration = some xmlDeclarationNode
  /-- A node records the number of its slot. -/
  recorded : ∀ {id : NodeId} {node : Node}, a.find? id = some node → node.id = id
  /-- All nodes are counted but the built-in one. -/
  counted : a.occupied = a.live + 1
  /-- No child is listed twice. -/
  distinct : ∀ owner : NodeId, (a.childrenAt owner).Nodup
  /-- Owners and lists agree about every node. -/
  settled : ∀ id : NodeId, a.Settled id

/-- A settled node stays settled when its owner, its place and its listings do not
change. -/
theorem Settled.congr (h : a.Settled id) (owners : a'.owner? id = a.owner? id)
    (places : a'.place? id = a.place? id)
    (lists : ∀ owner place, a'.Lists owner place id ↔ a.Lists owner place id) : a'.Settled id where
  listed listed := by
    rw [owners, places]
    exact h.listed ((lists _ _).1 listed)
  owned owned := by
    rw [owners] at owned
    obtain ⟨place, listed⟩ := h.owned owned
    exact ⟨place, (lists _ _).2 listed⟩

/-- A node that no one lists is settled when it names no owner. -/
theorem Settled.of_unowned (unowned : a.owner? id = none)
    (unlisted : ∀ owner place, ¬ a.Lists owner place id) : a.Settled id where
  listed listed := absurd listed (unlisted _ _)
  owned owned := by simp [unowned] at owned

/-- A node that is listed once is settled when it names that owner and that place. -/
theorem Settled.of_single (owned : a.owner? id = some owner) (placed : a.place? id = some place)
    (lists : ∀ p q, a.Lists p q id ↔ p = owner ∧ q = place) : a.Settled id where
  listed listed := by
    obtain ⟨rfl, rfl⟩ := (lists _ _).1 listed
    exact ⟨owned, placed⟩
  owned other := by
    obtain rfl := Option.some.inj (owned.symm.trans other)
    exact ⟨place, (lists _ _).2 ⟨rfl, rfl⟩⟩

namespace Consistent

/-- An owner lists exactly the nodes that name it, each in its own place. -/
theorem lists_iff (h : a.Consistent) :
    a.Lists owner place id ↔ a.owner? id = some owner ∧ a.place? id = some place := by
  constructor
  · exact (h.settled id).listed
  · intro ⟨owned, placed⟩
    obtain ⟨place', listed⟩ := (h.settled id).owned owned
    obtain rfl := Option.some.inj (((h.settled id).listed listed).2.symm.trans placed)
    exact listed

theorem mem_childrenAt_iff (h : a.Consistent) :
    id ∈ a.childrenAt owner ↔ a.owner? id = some owner ∧ a.place? id = some .child := by
  rw [← h.lists_iff, Lists]

/-- Whatever is listed is live, names its owner and asks for the place it has. -/
theorem find?_of_lists (h : a.Consistent) (listed : a.Lists owner place id) :
    ∃ kind, a.find? id = some ⟨id, some owner, kind⟩ ∧ kind.place? = some place := by
  obtain ⟨owned, placed⟩ := h.lists_iff.1 listed
  obtain ⟨node, live, place⟩ := exists_find?_of_place? placed
  have owns := (owner?_of_find? live).symm.trans owned
  have same := h.recorded live
  obtain ⟨_, _, kind⟩ := node
  cases same
  cases owns
  exact ⟨kind, live, place⟩

theorem exists_place?_of_owner? (h : a.Consistent) (owned : a.owner? id = some owner) :
    ∃ place, a.place? id = some place := by
  obtain ⟨place, listed⟩ := (h.settled id).owned owned
  exact ⟨place, (h.lists_iff.1 listed).2⟩

/-- Owners are live. -/
theorem exists_find?_owner (h : a.Consistent) (owned : a.owner? id = some owner) :
    ∃ node, a.find? owner = some node := by
  obtain ⟨place, listed⟩ := (h.settled id).owned owned
  exact exists_find?_of_lists listed

/-- Nothing owns the built-in declaration. -/
theorem owner?_xmlDeclaration (h : a.Consistent) : a.owner? xmlDeclaration = none := by
  rw [owner?_of_find? h.builtIn]
  rfl

theorem ne_xmlDeclaration_of_owner? (h : a.Consistent) (owned : a.owner? id = some owner) :
    id ≠ xmlDeclaration := by
  intro same
  subst same
  rw [h.owner?_xmlDeclaration] at owned
  cases owned

theorem ne_xmlDeclaration_of_element? (h : a.Consistent) {data : ElementData}
    (found : a.element? id = some data) : id ≠ xmlDeclaration := by
  intro same
  subst same
  rw [element?_of_find? h.builtIn] at found
  cases found

theorem ne_xmlDeclaration_of_isContainer (h : a.Consistent) (container : a.IsContainer id) :
    id ≠ xmlDeclaration := by
  intro same
  subst same
  obtain ⟨node, found, holds⟩ := container
  obtain rfl := Option.some.inj (found.symm.trans h.builtIn)
  cases holds

end Consistent

/-! ## What the lists say about their owner -/

theorem isContainer_of_lists_child (listed : a.Lists owner .child id) : a.IsContainer owner := by
  obtain ⟨node, found⟩ := exists_find?_of_lists listed
  rw [Lists, childrenAt_of_find? found] at listed
  obtain ⟨_, _, kind⟩ := node
  refine ⟨_, found, ?_⟩
  cases kind with
  | document data => rfl
  | element data => rfl
  | attr data => cases listed
  | namespaceDecl data => cases listed
  | text value => cases listed
  | comment value => cases listed

theorem exists_element?_of_get?_shelfAt {κ : Type} [DecidableEq κ] {shelf : Shelf κ} {key : κ}
    (found : (a.shelfAt shelf owner).get? key = some id) :
    ∃ data, a.element? owner = some data := by
  cases holds : a.element? owner with
  | some data => exact ⟨data, rfl⟩
  | none =>
    rw [shelfAt, holds, Option.map_none, Option.getD_none, OrderedMap.get?_empty] at found
    cases found

/-- An owner that lists something on a shelf is an element. -/
theorem exists_element?_of_lists {κ : Type} [DecidableEq κ] {shelf : Shelf κ} {file : κ → Place}
    (laws : shelf.Lawful file) {key : κ} (listed : a.Lists owner (file key) id) :
    ∃ data, a.element? owner = some data :=
  exists_element?_of_get?_shelfAt (laws.lists_iff.1 listed)

theorem isContainer_of_element? {data : ElementData} (holds : a.element? id = some data) :
    a.IsContainer id := by
  obtain ⟨⟨_, _, kind⟩, live, element⟩ := exists_find?_of_element? holds
  refine ⟨_, live, ?_⟩
  cases kind with
  | element data => rfl
  | _ => cases element

/-- Owners are documents and elements. -/
theorem Consistent.isContainer_of_owner? (h : a.Consistent) (owned : a.owner? id = some owner) :
    a.IsContainer owner := by
  obtain ⟨place, listed⟩ := (h.settled id).owned owned
  cases place with
  | child => exact isContainer_of_lists_child listed
  | attr name =>
    obtain ⟨data, holds⟩ := exists_element?_of_lists Shelf.attributes_lawful listed
    exact isContainer_of_element? holds
  | declaration nsPrefix =>
    obtain ⟨data, holds⟩ := exists_element?_of_lists Shelf.declarations_lawful listed
    exact isContainer_of_element? holds

/-- No document or element asks for a place on a shelf. -/
theorem IsContainer.place?_ne {κ : Type} [DecidableEq κ] {shelf : Shelf κ} {file : κ → Place}
    (laws : shelf.Lawful file) (container : a.IsContainer id) (key : κ) :
    a.place? id ≠ some (file key) := by
  obtain ⟨node, found, holds⟩ := container
  rw [place?_of_find? found]
  obtain ⟨_, _, kind⟩ := node
  cases kind with
  | document data => exact nofun
  | element data => exact fun same => laws.ne_child key (Option.some.inj same).symm
  | _ => cases holds

/-! ## Relinking -/

/-- The second arena has the nodes of the first.  They may have other owners and
other lists, but their identities and places are the same. -/
structure Relinks (a a' : Arena) : Prop where
  /-- As many slots hold a node. -/
  occupied : a'.occupied = a.occupied
  /-- As many nodes are counted. -/
  live : a'.live = a.live
  /-- The settings are the same. -/
  config : a'.config = a.config
  /-- Slot 0 is the same. -/
  builtIn : a'.find? xmlDeclaration = a.find? xmlDeclaration
  /-- The same slots hold a node, and it records the same identity. -/
  recorded : ∀ id, ((a'.find? id).map Node.id) = (a.find? id).map Node.id
  /-- Every node is of the same type. -/
  type : ∀ id, (a'.find? id).map Node.type = (a.find? id).map Node.type
  /-- Every node has the same place. -/
  place : ∀ id, a'.place? id = a.place? id

namespace Relinks

theorem refl (a : Arena) : a.Relinks a where
  occupied := rfl
  live := rfl
  config := rfl
  builtIn := rfl
  recorded _ := rfl
  type _ := rfl
  place _ := rfl

theorem trans {b c : Arena} (first : a.Relinks b) (second : b.Relinks c) : a.Relinks c where
  occupied := second.occupied.trans first.occupied
  live := second.live.trans first.live
  config := second.config.trans first.config
  builtIn := second.builtIn.trans first.builtIn
  recorded id := (second.recorded id).trans (first.recorded id)
  type id := (second.type id).trans (first.type id)
  place id := (second.place id).trans (first.place id)

theorem contains (h : a.Relinks a') (id : NodeId) : a'.contains id = a.contains id := by
  have same := congrArg Option.isSome (h.recorded id)
  rwa [Option.isSome_map, Option.isSome_map] at same

theorem isContainer (h : a.Relinks a') (container : a.IsContainer id) : a'.IsContainer id := by
  obtain ⟨node, found, holds⟩ := container
  have same := h.type id
  rw [found, Option.map_some] at same
  obtain ⟨node', found', types⟩ := Option.map_eq_some_iff.1 same
  exact ⟨node', found', by rw [types, holds]⟩

end Relinks

theorem occupied_update (a : Arena) (id : NodeId) (f : Node → Node) :
    (a.update id f).occupied = a.occupied := by
  have filled : ∀ slots : Array (Option Node),
      slots.countP Option.isSome = (slots.map Option.isSome).countP (· = true) := by
    intro slots
    rw [Array.countP_map]
    congr
    funext slot
    cases slot <;> rfl
  rw [occupied, occupied, filled, filled]
  congr 1
  apply Array.ext_getElem?
  intro i
  simp only [update, Array.getElem?_map, Array.getElem?_modify]
  split
  · rw [Option.map_map]
    congr 1
    funext slot
    cases slot <;> rfl
  · rfl

/-- A change of one slot relinks when it keeps identity, type and place. -/
theorem relinks_update {f : Node → Node} (apart : id ≠ xmlDeclaration)
    (same : ∀ node, a.find? id = some node →
      (f node).id = node.id ∧ (f node).type = node.type ∧ (f node).kind.place? = node.kind.place?) :
    a.Relinks (a.update id f) where
  occupied := occupied_update a id f
  live := rfl
  config := rfl
  builtIn := by rw [find?_update, if_neg apart]
  recorded := map_find?_update fun node found => (same node found).1
  type := map_find?_update fun node found => (same node found).2.1
  place := bind_find?_update fun node found => (same node found).2.2

theorem relinks_withParent (apart : id ≠ xmlDeclaration) (parent : Option NodeId) :
    a.Relinks (a.update id (Node.withParent parent)) :=
  relinks_update apart fun _ _ => ⟨rfl, rfl, rfl⟩

theorem relinks_mapChildren (apart : id ≠ xmlDeclaration) (g : List NodeId → List NodeId) :
    a.Relinks (a.update id (Node.mapChildren g)) :=
  relinks_update apart fun node _ =>
    ⟨rfl, node.kind.type_mapChildren g, node.kind.place?_mapChildren g⟩

theorem relinks_mapElement (apart : id ≠ xmlDeclaration) (g : ElementData → ElementData) :
    a.Relinks (a.update id (Node.mapElement g)) :=
  relinks_update apart fun node _ =>
    ⟨rfl, node.kind.type_mapElement g, node.kind.place?_mapElement g⟩

/-- After relinking only the lists and the settling of the nodes are in question. -/
theorem Consistent.of_relinks (h : a.Consistent) (relinks : a.Relinks a')
    (distinct : ∀ owner : NodeId, (a'.childrenAt owner).Nodup) (settled : ∀ id, a'.Settled id) :
    a'.Consistent where
  builtIn := relinks.builtIn.trans h.builtIn
  recorded {id node} found := by
    have same := relinks.recorded id
    rw [found, Option.map_some] at same
    obtain ⟨node', found', ids⟩ := Option.map_eq_some_iff.1 same.symm
    rw [← ids, h.recorded found']
  counted := by rw [relinks.occupied, relinks.live, h.counted]
  distinct := distinct
  settled := settled

end XmlTree.Arena
