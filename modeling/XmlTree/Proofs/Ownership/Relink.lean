import XmlTree.Edit.Children
import XmlTree.Proofs.Ownership.Place

/-!
# Relinking

Four changes of one slot move nodes between owners: a node names another owner,
a container gets another child list, a shelf gets an entry and a shelf loses one.
For each of them this module says what the owners list afterwards.

Attributes and declarations are filed on shelves that obey the same laws
(`Shelf.Lawful`), so what holds of one shelf holds of the other.
-/

namespace XmlTree

/-! ## Payloads -/

theorem NodeKind.type_mapChildren (g : List NodeId → List NodeId) (kind : NodeKind) :
    (kind.mapChildren g).type = kind.type := by
  cases kind <;> rfl

theorem NodeKind.type_mapElement (g : ElementData → ElementData) (kind : NodeKind) :
    (kind.mapElement g).type = kind.type := by
  cases kind <;> rfl

theorem NodeKind.place?_mapChildren (g : List NodeId → List NodeId) (kind : NodeKind) :
    (kind.mapChildren g).place? = kind.place? := by
  cases kind <;> rfl

theorem NodeKind.place?_mapElement (g : ElementData → ElementData) (kind : NodeKind) :
    (kind.mapElement g).place? = kind.place? := by
  cases kind <;> rfl

theorem NodeKind.children_mapChildren {kind : NodeKind} (g : List NodeId → List NodeId)
    (container : kind.type.isContainer = true) :
    (kind.mapChildren g).children = g kind.children := by
  cases kind with
  | document data => rfl
  | element data => rfl
  | attr data => cases container
  | namespaceDecl data => cases container
  | text value => cases container
  | comment value => cases container

theorem Node.element?_mapChildren (g : List NodeId → List NodeId) (node : Node) :
    (node.mapChildren g).element?
      = node.element?.map fun data => { data with children := g data.children } := by
  obtain ⟨id, parent, kind⟩ := node
  cases kind <;> rfl

theorem Node.element?_mapElement (g : ElementData → ElementData) (node : Node) :
    (node.mapElement g).element? = node.element?.map g := by
  obtain ⟨id, parent, kind⟩ := node
  cases kind <;> rfl

theorem Node.children_mapElement {g : ElementData → ElementData}
    (same : ∀ data, (g data).children = data.children) (node : Node) :
    (node.mapElement g).children = node.children := by
  obtain ⟨id, parent, kind⟩ := node
  cases kind with
  | element data => exact same data
  | _ => rfl

namespace Arena

variable {a : Arena} {id owner x : NodeId} {place : Place}

/-- Whether a slot holds a document or an element. -/
def IsContainer (a : Arena) (id : NodeId) : Prop :=
  ∃ node, a.find? id = some node ∧ node.type.isContainer = true

/-! ## Another owner -/

theorem owner?_withParent (live : a.contains id = true) (parent : Option NodeId) (x : NodeId) :
    (a.update id (Node.withParent parent)).owner? x = if id = x then parent else a.owner? x := by
  rw [owner?, find?_update]
  split
  next same =>
    subst same
    obtain ⟨node, found⟩ := contains_iff.1 live
    rw [found]
    rfl
  next other => rfl

theorem childrenAt_withParent (parent : Option NodeId) (x : NodeId) :
    (a.update id (Node.withParent parent)).childrenAt x = a.childrenAt x :=
  childrenAt_update (f := Node.withParent parent) (fun _ => rfl) x

theorem shelfAt_withParent {κ : Type} (shelf : Shelf κ) (parent : Option NodeId) (x : NodeId) :
    (a.update id (Node.withParent parent)).shelfAt shelf x = a.shelfAt shelf x :=
  shelfAt_update (f := Node.withParent parent) (fun _ => rfl) x

theorem lists_withParent (parent : Option NodeId) :
    (a.update id (Node.withParent parent)).Lists owner place x ↔ a.Lists owner place x := by
  cases place with
  | child => rw [Lists, Lists, childrenAt_withParent]
  | attr name => rw [Lists, Lists, shelfAt_withParent]
  | declaration nsPrefix => rw [Lists, Lists, shelfAt_withParent]

/-! ## Another child list -/

theorem owner?_mapChildren (g : List NodeId → List NodeId) (x : NodeId) :
    (a.update id (Node.mapChildren g)).owner? x = a.owner? x :=
  owner?_update (f := Node.mapChildren g) (fun _ => rfl) x

theorem childrenAt_mapChildren (container : a.IsContainer id) (g : List NodeId → List NodeId)
    (x : NodeId) : (a.update id (Node.mapChildren g)).childrenAt x
      = if id = x then g (a.childrenAt x) else a.childrenAt x := by
  rw [childrenAt, find?_update]
  split
  next same =>
    subst same
    obtain ⟨node, found, holds⟩ := container
    rw [childrenAt, found]
    exact NodeKind.children_mapChildren g holds
  next other => rfl

theorem lists_mapChildren (container : a.IsContainer id) (g : List NodeId → List NodeId) :
    (a.update id (Node.mapChildren g)).Lists owner place x
      ↔ if id = owner ∧ place = .child then x ∈ g (a.childrenAt id)
        else a.Lists owner place x := by
  have maps : ∀ {κ : Type} (shelf : Shelf κ),
      (∀ (data : ElementData) list, shelf.view { data with children := list } = shelf.view data) →
      (a.update id (Node.mapChildren g)).shelfAt shelf owner = a.shelfAt shelf owner := by
    intro κ shelf apart
    refine shelfAt_update (fun node => ?_) owner
    rw [Node.element?_mapChildren, Option.map_map]
    exact congrArg (Option.map · node.element?) (funext fun data => apart data _)
  cases place with
  | child =>
    rw [Lists, Lists, childrenAt_mapChildren container]
    by_cases same : id = owner
    · simp [same]
    · simp [same]
  | attr name => simp [Lists, maps .attributes fun _ _ => rfl]
  | declaration nsPrefix => simp [Lists, maps .declarations fun _ _ => rfl]

end Arena

/-! ## Shelves -/

/-- The laws of a shelf.  `file` says which place an entry under a key is. -/
structure Shelf.Lawful {κ : Type} [DecidableEq κ] (shelf : Shelf κ) (file : κ → Place) : Prop where
  /-- Different keys are different places. -/
  inj : ∀ {k k' : κ}, file k = file k' → k = k'
  /-- No place of the shelf is in the child list. -/
  ne_child : ∀ key : κ, file key ≠ .child
  /-- The places of the shelf are the entries of its map. -/
  lists_iff : ∀ {a : Arena} {owner id : NodeId} {key : κ},
    a.Lists owner (file key) id ↔ (a.shelfAt shelf owner).get? key = some id
  /-- A map that is put on the shelf is the map on the shelf. -/
  view_replace : ∀ map data, shelf.view (shelf.replace map data) = map
  /-- The child list does not depend on the map. -/
  children_replace : ∀ map data, (shelf.replace map data).children = data.children
  /-- The name does not depend on the map. -/
  expandedName_replace : ∀ map data, (shelf.replace map data).expandedName = data.expandedName
  /-- The other places do not depend on the map. -/
  lists_replace : ∀ {a : Arena} {element owner id : NodeId} {place : Place}
    (g : ElementData → OrderedMap κ NodeId), (∀ key, place ≠ file key) →
    ((a.update element (Node.mapElement fun data => shelf.replace (g data) data)).Lists
      owner place id ↔ a.Lists owner place id)

namespace Arena

section MapElement

variable {a : Arena} {id owner x : NodeId} {g : ElementData → ElementData}

theorem owner?_mapElement (x : NodeId) : (a.update id (Node.mapElement g)).owner? x = a.owner? x :=
  owner?_update (f := Node.mapElement g) (fun _ => rfl) x

theorem lists_child_mapElement (same : ∀ data, (g data).children = data.children) :
    (a.update id (Node.mapElement g)).Lists owner .child x ↔ a.Lists owner .child x := by
  rw [Lists, Lists, childrenAt_update (Node.children_mapElement same)]

theorem get?_shelfAt_mapElement {κ : Type} [DecidableEq κ] {shelf : Shelf κ} {key : κ}
    (same : ∀ data, shelf.view (g data) = shelf.view data) :
    ((a.update id (Node.mapElement g)).shelfAt shelf owner).get? key = some x
      ↔ (a.shelfAt shelf owner).get? key = some x := by
  have same' : ∀ node, (Node.mapElement g node).element?.map shelf.view
      = node.element?.map shelf.view := by
    intro node
    rw [Node.element?_mapElement, Option.map_map]
    exact congrArg (Option.map · node.element?) (funext same)
  rw [shelfAt_update same']

end MapElement

end Arena

namespace Shelf

theorem attributes_lawful : attributes.Lawful .attr where
  inj same := Place.attr.inj same
  ne_child _ := Place.noConfusion
  lists_iff := Iff.rfl
  view_replace _ _ := rfl
  children_replace _ _ := rfl
  expandedName_replace _ _ := rfl
  lists_replace {a element owner id place} g apart := by
    cases place with
    | child => exact Arena.lists_child_mapElement fun _ => rfl
    | attr name => exact absurd rfl (apart name)
    | declaration nsPrefix => exact Arena.get?_shelfAt_mapElement fun _ => rfl

theorem declarations_lawful : declarations.Lawful .declaration where
  inj same := Place.declaration.inj same
  ne_child _ := Place.noConfusion
  lists_iff := Iff.rfl
  view_replace _ _ := rfl
  children_replace _ _ := rfl
  expandedName_replace _ _ := rfl
  lists_replace {a element owner id place} g apart := by
    cases place with
    | child => exact Arena.lists_child_mapElement fun _ => rfl
    | attr name => exact Arena.get?_shelfAt_mapElement fun _ => rfl
    | declaration nsPrefix => exact absurd rfl (apart nsPrefix)

namespace Lawful

variable {κ : Type} [DecidableEq κ] {shelf : Shelf κ} {file : κ → Place}
variable {a : Arena} {element owner id x : NodeId} {key : κ} {place : Place} {data : ElementData}

/-- A place on a shelf holds one node at most. -/
theorem unique (laws : shelf.Lawful file) (listed : a.Lists owner (file key) id)
    (listed' : a.Lists owner (file key) x) : id = x :=
  Option.some.inj ((laws.lists_iff.1 listed).symm.trans (laws.lists_iff.1 listed'))

theorem shelfAt_mapElement (laws : shelf.Lawful file) (found : a.element? element = some data)
    (g : ElementData → OrderedMap κ NodeId) (owner : NodeId) :
    (a.update element (Node.mapElement fun data => shelf.replace (g data) data)).shelfAt shelf owner
      = if element = owner then g data else a.shelfAt shelf owner := by
  rw [Arena.shelfAt, Arena.element?, Arena.find?_update]
  split
  next same =>
    subst same
    obtain ⟨node, live, holds⟩ := Arena.exists_find?_of_element? found
    rw [live, Option.map_some, Option.bind_some, Node.element?_mapElement, holds, Option.map_some,
      Option.map_some, laws.view_replace, Option.getD_some]
  next other => rfl

/-- A new entry takes its place.  The other places are as before. -/
theorem lists_insert (laws : shelf.Lawful file) (found : a.element? element = some data) :
    (a.update element (shelf.insert key id)).Lists owner place x
      ↔ if element = owner ∧ place = file key then id = x else a.Lists owner place x := by
  by_cases filed : ∃ k, place = file k
  · obtain ⟨k, rfl⟩ := filed
    have keys : file k = file key ↔ key = k :=
      ⟨fun same => (laws.inj same).symm, fun same => same ▸ rfl⟩
    have shelves :=
      laws.shelfAt_mapElement found (fun data => (shelf.view data).insert key id) owner
    rw [laws.lists_iff, laws.lists_iff]
    show (Arena.shelfAt (a.update element (Node.mapElement _)) shelf owner).get? k = some x ↔ _
    simp only [shelves, keys]
    by_cases same : element = owner
    · subst same
      rw [if_pos rfl, OrderedMap.get?_insert, Arena.shelfAt_of_element? shelf found]
      by_cases h : key = k <;> simp [h]
    · simp [same]
  · have apart : ∀ k, place ≠ file k := fun k same => filed ⟨k, same⟩
    rw [if_neg fun both => apart key both.2]
    exact laws.lists_replace _ apart

/-- An erased entry leaves its place empty.  The other places are as before. -/
theorem lists_erase (laws : shelf.Lawful file) (found : a.element? element = some data) :
    (a.update element (shelf.erase key)).Lists owner place x
      ↔ ¬ (element = owner ∧ place = file key) ∧ a.Lists owner place x := by
  by_cases filed : ∃ k, place = file k
  · obtain ⟨k, rfl⟩ := filed
    have keys : file k = file key ↔ key = k :=
      ⟨fun same => (laws.inj same).symm, fun same => same ▸ rfl⟩
    have shelves := laws.shelfAt_mapElement found (fun data => (shelf.view data).erase key) owner
    rw [laws.lists_iff, laws.lists_iff]
    show (Arena.shelfAt (a.update element (Node.mapElement _)) shelf owner).get? k = some x ↔ _
    simp only [shelves, keys]
    by_cases same : element = owner
    · subst same
      rw [if_pos rfl, OrderedMap.get?_erase, Arena.shelfAt_of_element? shelf found]
      by_cases h : key = k <;> simp [h]
    · simp [same]
  · have apart : ∀ k, place ≠ file k := fun k same => filed ⟨k, same⟩
    have other : ¬ (element = owner ∧ place = file key) := fun both => apart key both.2
    rw [and_iff_right other]
    exact laws.lists_replace _ apart

end Lawful

end Shelf

end XmlTree
