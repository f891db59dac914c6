import XmlTree.Edit.Ownership
import XmlTree.Proofs.Answer
import XmlTree.Proofs.OrderedMap

/-!
# Places

An owner lists a node in one of three collections: the child list, the attributes
or the declarations.  A `Place` names the collection and, for a map, the key.  The
place a node asks for depends on its payload alone (`NodeKind.place?`).  What an
owner lists where is `Arena.Lists`.

The rest says what the changes of one slot do to owners and places.  Renaming an
owner (`Node.withParent`) leaves all lists alone, and a change of the lists leaves
all owners and all places alone.
-/

namespace XmlTree

/-! ## Places -/

/-- Where an owner lists a node. -/
inductive Place where
  /-- In the child list. -/
  | child
  /-- Among the attributes, under an expanded name. -/
  | attr (name : ExpandedName)
  /-- Among the declarations, under a prefix. -/
  | declaration (nsPrefix : Option String)
deriving DecidableEq

/-- The place that a payload has below an owner.  Documents have none. -/
def NodeKind.place? : NodeKind → Option Place
  | document _ => none
  | attr data => some (.attr data.expandedName)
  | namespaceDecl data => some (.declaration data.nsPrefix)
  | element _ | text _ | comment _ => some .child

namespace Arena

/-- The owner that a node names. -/
def owner? (a : Arena) (id : NodeId) : Option NodeId := (a.find? id).bind Node.parent

/-- The place that a node has below an owner. -/
def place? (a : Arena) (id : NodeId) : Option Place :=
  (a.find? id).bind fun node => node.kind.place?

/-- The data of an element, nothing for any other node. -/
def element? (a : Arena) (id : NodeId) : Option ElementData := (a.find? id).bind Node.element?

/-- A map of an element.  The map is empty for any other node. -/
def shelfAt {κ : Type} (a : Arena) (shelf : Shelf κ) (id : NodeId) : OrderedMap κ NodeId :=
  ((a.element? id).map shelf.view).getD ∅

/-- What an owner lists in a place. -/
def Lists (a : Arena) (owner : NodeId) : Place → NodeId → Prop
  | .child, id => id ∈ a.childrenAt owner
  | .attr name, id => (a.shelfAt .attributes owner).get? name = some id
  | .declaration nsPrefix, id => (a.shelfAt .declarations owner).get? nsPrefix = some id

/-! ## Reading a live node -/

theorem contains_iff {a : Arena} {id : NodeId} :
    a.contains id = true ↔ ∃ node, a.find? id = some node :=
  Option.isSome_iff_exists

section Found

variable {a : Arena} {id : NodeId} {node : Node}

theorem get_of_find? (h : a.find? id = some node) : a.get id = .ok node := by rw [get, h]

theorem get_of_not_find? (h : a.find? id = none) : a.get id = .error (.notFound id) := by
  rw [get, h]

theorem get_eq_ok_iff : a.get id = .ok node ↔ a.find? id = some node := by
  rw [get]
  cases a.find? id with
  | none => simp
  | some found => simp

theorem element_eq_ok_iff {data : ElementData} :
    a.element id = .ok data ↔ a.element? id = some data := by
  rw [element, element?, Option.bind_eq_some_iff]
  simp only [bind_eq_ok_iff, get_eq_ok_iff]
  refine exists_congr fun node => and_congr_right fun _ => ?_
  cases node.element? <;> simp [pure, Except.pure]

theorem element_of_not_element? (h : a.find? id = some node) (other : node.element? = none) :
    a.element id = .error (.wrongType (.exactly .element) node.type) := by
  rw [element, get_of_find? h]
  simp only [Bind.bind, Except.bind, other]
  rfl

theorem attributeData_eq_ok_iff {data : AttributeData} : a.attributeData id = .ok data ↔
    ∃ node, a.find? id = some node ∧ node.kind = .attr data := by
  rw [attributeData]
  simp only [bind_eq_ok_iff, get_eq_ok_iff]
  refine exists_congr fun node => and_congr_right fun _ => ?_
  obtain ⟨_, _, kind⟩ := node
  cases kind <;> simp [Node.attribute?, pure, Except.pure]

theorem namespaceData_eq_ok_iff {data : NamespaceData} : a.namespaceData id = .ok data ↔
    ∃ node, a.find? id = some node ∧ node.kind = .namespaceDecl data := by
  rw [namespaceData]
  simp only [bind_eq_ok_iff, get_eq_ok_iff]
  refine exists_congr fun node => and_congr_right fun _ => ?_
  obtain ⟨_, _, kind⟩ := node
  cases kind <;> simp [Node.namespaceDecl?, pure, Except.pure]

theorem document_eq_ok_iff {data : DocumentData} : a.document id = .ok data ↔
    ∃ node, a.find? id = some node ∧ node.kind = .document data := by
  rw [document]
  simp only [bind_eq_ok_iff, get_eq_ok_iff]
  refine exists_congr fun node => and_congr_right fun _ => ?_
  obtain ⟨_, _, kind⟩ := node
  cases kind <;> simp [Node.document?, pure, Except.pure]

theorem owner?_of_find? (h : a.find? id = some node) : a.owner? id = node.parent := by
  rw [owner?, h, Option.bind_some]

theorem place?_of_find? (h : a.find? id = some node) : a.place? id = node.kind.place? := by
  rw [place?, h, Option.bind_some]

theorem element?_of_find? (h : a.find? id = some node) : a.element? id = node.element? := by
  rw [element?, h, Option.bind_some]

theorem childrenAt_of_find? (h : a.find? id = some node) : a.childrenAt id = node.children := by
  rw [childrenAt, h, Option.map_some, Option.getD_some]

theorem shelfAt_of_element? {κ : Type} (shelf : Shelf κ) {data : ElementData}
    (h : a.element? id = some data) : a.shelfAt shelf id = shelf.view data := by
  rw [shelfAt, h, Option.map_some, Option.getD_some]

theorem exists_find?_of_owner? {owner : NodeId} (h : a.owner? id = some owner) :
    ∃ node, a.find? id = some node ∧ node.parent = some owner :=
  Option.bind_eq_some_iff.1 h

theorem exists_find?_of_place? {place : Place} (h : a.place? id = some place) :
    ∃ node, a.find? id = some node ∧ node.kind.place? = some place :=
  Option.bind_eq_some_iff.1 h

theorem exists_find?_of_element? {data : ElementData} (h : a.element? id = some data) :
    ∃ node, a.find? id = some node ∧ node.element? = some data :=
  Option.bind_eq_some_iff.1 h

/-- An owner that lists something is live. -/
theorem exists_find?_of_lists {owner : NodeId} {place : Place} (h : a.Lists owner place id) :
    ∃ node, a.find? owner = some node := by
  cases found : a.find? owner with
  | some node => exact ⟨node, rfl⟩
  | none =>
    cases place with
    | child => simp [Lists, childrenAt, found] at h
    | attr name => simp [Lists, shelfAt, element?, found, OrderedMap.get?_empty] at h
    | declaration nsPrefix => simp [Lists, shelfAt, element?, found, OrderedMap.get?_empty] at h

/-- What an owner lists is what its payload owns. -/
theorem exists_lists_iff {owner : NodeId} (found : a.find? owner = some node) :
    (∃ place, a.Lists owner place id) ↔ id ∈ node.kind.owned := by
  have children := childrenAt_of_find? found
  have element := element?_of_find? found
  obtain ⟨_, _, kind⟩ := node
  constructor
  · intro ⟨place, listed⟩
    cases place with
    | child =>
      rw [Lists, children] at listed
      cases kind with
      | document data => exact listed
      | element data => exact List.mem_append_right _ listed
      | _ => cases listed
    | attr name =>
      cases kind with
      | element data =>
        rw [Lists, shelfAt_of_element? _ element] at listed
        have value := OrderedMap.mem_values_iff.2 ⟨name, listed⟩
        exact List.mem_append_left _ (List.mem_append_left _ value)
      | _ => simp [Lists, shelfAt, element, Node.element?, OrderedMap.get?_empty] at listed
    | declaration nsPrefix =>
      cases kind with
      | element data =>
        rw [Lists, shelfAt_of_element? _ element] at listed
        have value := OrderedMap.mem_values_iff.2 ⟨nsPrefix, listed⟩
        exact List.mem_append_left _ (List.mem_append_right _ value)
      | _ => simp [Lists, shelfAt, element, Node.element?, OrderedMap.get?_empty] at listed
  · intro owned
    cases kind with
    | document data => exact ⟨.child, by rw [Lists, children]; exact owned⟩
    | element data =>
      rcases List.mem_append.1 owned with mapped | child
      · rcases List.mem_append.1 mapped with value | value
        · obtain ⟨name, entry⟩ := OrderedMap.mem_values_iff.1 value
          exact ⟨.attr name, by rw [Lists, shelfAt_of_element? _ element]; exact entry⟩
        · obtain ⟨nsPrefix, entry⟩ := OrderedMap.mem_values_iff.1 value
          exact ⟨.declaration nsPrefix, by rw [Lists, shelfAt_of_element? _ element]; exact entry⟩
      · exact ⟨.child, by rw [Lists, children]; exact child⟩
    | _ => cases owned

/-- What an owner lists depends on its own slot only. -/
theorem lists_congr {a' : Arena} {owner : NodeId} {place : Place}
    (same : a'.find? owner = a.find? owner) : a'.Lists owner place id ↔ a.Lists owner place id := by
  cases place <;> simp only [Lists, childrenAt, shelfAt, element?, same]

end Found

/-! ## The changes of one slot -/

section Update

variable {a : Arena} {id : NodeId} {f : Node → Node}

/-- What a change does not touch is read as before. -/
theorem bind_find?_update {β : Type} {view : Node → Option β}
    (same : ∀ node, a.find? id = some node → view (f node) = view node) (x : NodeId) :
    ((a.update id f).find? x).bind view = (a.find? x).bind view := by
  rw [find?_update]
  split
  next here =>
    subst here
    cases found : a.find? id with
    | none => rfl
    | some node => exact same node found
  next other => rfl

/-- A change of a slot depends on nothing but what it does to the node there. -/
theorem update_congr {id : NodeId} {f g : Node → Node}
    (same : ∀ node, a.find? id = some node → f node = g node) : a.update id f = a.update id g := by
  have slots : a.slots.modify id.index (Option.map f) = a.slots.modify id.index (Option.map g) := by
    refine Array.ext_getElem? fun i => ?_
    rw [Array.getElem?_modify, Array.getElem?_modify]
    split
    next here =>
      subst here
      refine Option.map_congr fun slot filled => ?_
      cases slot with
      | none => rfl
      | some node => exact congrArg some (same node (by rw [find?, filled, Option.join_some]))
    next other => rfl
  rw [update, update, slots]

theorem map_find?_update {β : Type} {view : Node → β}
    (same : ∀ node, a.find? id = some node → view (f node) = view node) (x : NodeId) :
    ((a.update id f).find? x).map view = (a.find? x).map view := by
  have same' : ∀ node, a.find? id = some node → (some ∘ view) (f node) = (some ∘ view) node :=
    fun node found => congrArg some (same node found)
  rw [Option.map_eq_bind, Option.map_eq_bind, bind_find?_update same']

theorem owner?_update (same : ∀ node, (f node).parent = node.parent) (x : NodeId) :
    (a.update id f).owner? x = a.owner? x :=
  bind_find?_update (fun node _ => same node) x

theorem childrenAt_update (same : ∀ node, (f node).children = node.children) (x : NodeId) :
    (a.update id f).childrenAt x = a.childrenAt x := by
  rw [childrenAt, map_find?_update fun node _ => same node, ← childrenAt]

theorem shelfAt_update {κ : Type} {shelf : Shelf κ}
    (same : ∀ node, (f node).element?.map shelf.view = node.element?.map shelf.view) (x : NodeId) :
    (a.update id f).shelfAt shelf x = a.shelfAt shelf x := by
  rw [shelfAt, shelfAt, element?, element?, Option.map_bind, Option.map_bind]
  exact congrArg (Option.getD · ∅) (bind_find?_update (fun node _ => same node) x)

end Update

end Arena

end XmlTree
