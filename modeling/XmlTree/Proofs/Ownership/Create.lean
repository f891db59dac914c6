import XmlTree.Proofs.Lineage
import XmlTree.Proofs.Ownership.Shelves

/-!
# New nodes

A new node fills the slot after the last.  No one has listed its identity before,
since a consistent arena lists live nodes only, and it owns nothing yet
(`Consistent.push`).

The edits that add an attribute or a declaration create a node and file it (`added`).
The filing cannot fail, so the new node is never released again (`addAttribute_eq`,
`addNamespace_eq`).
-/

namespace XmlTree.Arena

variable {a a' : Arena} {element id owner x : NodeId} {place : Place} {kind : NodeKind}
variable {data : ElementData}

/-! ## A new slot -/

/-- The identity that the next node gets. -/
def nextId (a : Arena) : NodeId := ⟨a.slots.size⟩

theorem find?_push (a : Arena) (kind : NodeKind) (x : NodeId) :
    (a.push kind).find? x = if a.nextId = x then some ⟨x, none, kind⟩ else a.find? x := by
  obtain ⟨index⟩ := x
  rw [find?, push, Array.getElem?_push, nextId]
  by_cases last : index = a.slots.size
  · subst last
    simp
  · have other : (⟨a.slots.size⟩ : NodeId) ≠ ⟨index⟩ := fun same =>
      last (congrArg NodeId.index same).symm
    rw [if_neg last, if_neg other, find?]

theorem find?_nextId (a : Arena) : a.find? a.nextId = none := by
  rw [find?, nextId, Array.getElem?_eq_none_iff.2 (Nat.le_refl _)]
  rfl

theorem occupied_push (a : Arena) (kind : NodeKind) : (a.push kind).occupied = a.occupied + 1 := by
  rw [occupied, push, Array.countP_push, occupied]
  rfl

theorem nextId_ne_of_find? {node : Node} (found : a.find? x = some node) : a.nextId ≠ x := by
  intro same
  subst same
  rw [find?_nextId] at found
  cases found

theorem find?_push_of_find? {node : Node} (found : a.find? x = some node) (kind : NodeKind) :
    (a.push kind).find? x = some node := by
  rw [find?_push, if_neg (nextId_ne_of_find? found), found]

theorem owner?_push (a : Arena) (kind : NodeKind) (x : NodeId) :
    (a.push kind).owner? x = a.owner? x := by
  rw [owner?, owner?, find?_push]
  split
  next same => subst same; rw [find?_nextId]; rfl
  next other => rfl

theorem place?_nextId_push (a : Arena) (kind : NodeKind) :
    (a.push kind).place? a.nextId = kind.place? :=
  place?_of_find? ((find?_push a kind a.nextId).trans (if_pos rfl))

/-- A node that owns nothing adds nothing to the lists. -/
theorem lists_push (bare : kind.owned = []) :
    (a.push kind).Lists owner place x ↔ a.Lists owner place x := by
  by_cases new : a.nextId = owner
  · subst new
    have found : (a.push kind).find? a.nextId = some ⟨a.nextId, none, kind⟩ := by
      rw [find?_push, if_pos rfl]
    constructor
    · intro listed
      have owned := (exists_lists_iff found).1 ⟨place, listed⟩
      rw [bare] at owned
      cases owned
    · intro listed
      obtain ⟨node, live⟩ := exists_find?_of_lists listed
      exact absurd rfl (nextId_ne_of_find? live)
  · exact lists_congr (by rw [find?_push, if_neg new])

theorem Consistent.push (h : a.Consistent) (kind : NodeKind) (bare : kind.owned = []) :
    (a.push kind).Consistent where
  builtIn := find?_push_of_find? h.builtIn kind
  recorded {x node} found := by
    rw [find?_push] at found
    split at found
    next => cases found; rfl
    next => exact h.recorded found
  counted := by
    rw [occupied_push, h.counted]
    rfl
  distinct p := by
    rw [childrenAt, find?_push]
    split
    next =>
      have childless : kind.children = [] := by
        cases kind with
        | document data => exact bare
        | element data => exact (List.append_eq_nil_iff.1 bare).2
        | _ => rfl
      show kind.children.Nodup
      rw [childless]
      exact List.nodup_nil
    next => exact h.distinct p
  settled x := by
    cases Decidable.em (a.nextId = x) with
    | inl new =>
      subst new
      have unowned : a.owner? a.nextId = none := by rw [owner?, find?_nextId]; rfl
      refine .of_unowned ((owner?_push a kind _).trans unowned) fun p q listed => ?_
      have owned := (h.lists_iff.1 ((lists_push bare).1 listed)).1
      rw [unowned] at owned
      cases owned
    | inr old =>
      refine (h.settled x).congr (owner?_push a kind x) ?_ fun p q => lists_push bare
      rw [place?, place?, find?_push, if_neg old]

/-! ## Filing a new node -/

theorem place?_of_attributeData {entry : AttributeData} (holds : a.attributeData id = .ok entry) :
    a.place? id = some (.attr entry.expandedName) := by
  obtain ⟨node, found, kind⟩ := attributeData_eq_ok_iff.1 holds
  rw [place?_of_find? found, kind, NodeKind.place?]

theorem place?_of_namespaceData {entry : NamespaceData} (holds : a.namespaceData id = .ok entry) :
    a.place? id = some (.declaration entry.nsPrefix) := by
  obtain ⟨node, found, kind⟩ := namespaceData_eq_ok_iff.1 holds
  rw [place?_of_find? found, kind, NodeKind.place?]

theorem Consistent.ne_xmlDeclaration_of_attributeData (h : a.Consistent) {entry : AttributeData}
    (holds : a.attributeData id = .ok entry) : id ≠ xmlDeclaration := by
  intro same
  subst same
  obtain ⟨node, found, kind⟩ := attributeData_eq_ok_iff.1 holds
  obtain rfl := Option.some.inj (h.builtIn.symm.trans found)
  cases kind

theorem setAttribute_eq (h : a.Consistent) (element id : NodeId) : Edit.setAttribute element id a
    = match a.element element, a.attributeData id with
      | .error e, _ => .error e a
      | .ok _, .error e => .error e a
      | .ok _, .ok entry =>
          .ok ((a.occupant? .attributes element entry.expandedName).filter (· ≠ id))
            (a.claimed .attributes element id entry.expandedName) := by
  rw [Edit.setAttribute, Edit.discard_query_bind]
  cases holds : a.element element with
  | error e => rfl
  | ok data =>
    show (Edit.query (·.attributeData id) >>= _ : Edit (Option NodeId)) a = _
    rw [Edit.query_bind]
    cases entry : a.attributeData id with
    | error e => rfl
    | ok entry' =>
      exact claim_eq h Shelf.attributes_lawful (element_eq_ok_iff.1 holds)
        (place?_of_attributeData entry)

theorem setNamespace_eq (h : a.Consistent) (element id : NodeId) : Edit.setNamespace element id a
    = if id = xmlDeclaration then .error (.hierarchy .builtInOwned) a
      else match a.element element, a.namespaceData id with
      | .error e, _ => .error e a
      | .ok _, .error e => .error e a
      | .ok _, .ok entry =>
          .ok ((a.occupant? .declarations element entry.nsPrefix).filter (· ≠ id))
            (a.claimed .declarations element id entry.nsPrefix) := by
  rw [Edit.setNamespace]
  split
  next builtIn => rfl
  next other =>
    show (discard (Edit.query (·.element element)) >>= _ : Edit (Option NodeId)) a = _
    rw [Edit.discard_query_bind]
    cases holds : a.element element with
    | error e => rfl
    | ok data =>
      show (Edit.query (·.namespaceData id) >>= _ : Edit (Option NodeId)) a = _
      rw [Edit.query_bind]
      cases entry : a.namespaceData id with
      | error e => rfl
      | ok entry' =>
        exact claim_eq h Shelf.declarations_lawful (element_eq_ok_iff.1 holds)
          (place?_of_namespaceData entry)

/-- An edit that has given an attribute has claimed it. -/
theorem Consistent.claimed_of_setAttribute (h : a.Consistent) {old : Option NodeId}
    (ran : Edit.setAttribute element id a = .ok old a') : ∃ data name,
      a.element? element = some data ∧ a.place? id = some (.attr name) ∧ id ≠ xmlDeclaration ∧
        old = (a.occupant? .attributes element name).filter (· ≠ id) ∧
          a' = a.claimed .attributes element id name := by
  rw [setAttribute_eq h] at ran
  cases holds : a.element element with
  | error e => simp [holds] at ran
  | ok data =>
    cases valued : a.attributeData id with
    | error e => simp [holds, valued] at ran
    | ok entry =>
      rw [holds, valued] at ran
      cases ran
      exact ⟨data, _, element_eq_ok_iff.1 holds, place?_of_attributeData valued,
        h.ne_xmlDeclaration_of_attributeData valued, rfl, rfl⟩

/-- An edit that has given a declaration has claimed it. -/
theorem Consistent.claimed_of_setNamespace (h : a.Consistent) {old : Option NodeId}
    (ran : Edit.setNamespace element id a = .ok old a') : ∃ data nsPrefix,
      a.element? element = some data ∧ a.place? id = some (.declaration nsPrefix) ∧
        id ≠ xmlDeclaration ∧
          old = (a.occupant? .declarations element nsPrefix).filter (· ≠ id) ∧
            a' = a.claimed .declarations element id nsPrefix := by
  rw [setNamespace_eq h] at ran
  split at ran
  next builtIn => cases ran
  next other =>
    cases holds : a.element element with
    | error e => simp [holds] at ran
    | ok data =>
      cases valued : a.namespaceData id with
      | error e => simp [holds, valued] at ran
      | ok entry =>
        rw [holds, valued] at ran
        cases ran
        exact ⟨data, _, element_eq_ok_iff.1 holds, place?_of_namespaceData valued, other, rfl, rfl⟩

theorem element_push (holds : a.element element = .ok data) (kind : NodeKind) :
    (a.push kind).element element = .ok data := by
  obtain ⟨node, found, same⟩ := exists_find?_of_element? (element_eq_ok_iff.1 holds)
  rw [element_eq_ok_iff, element?_of_find? (find?_push_of_find? found kind), same]

/-- When the filing of a new node succeeds, so does the whole edit. -/
theorem allocate_ownOrRelease_eq {own : NodeId → Edit (Option NodeId)} {old : Option NodeId}
    {a' : Arena} (owned : own a.nextId (a.push kind) = .ok old a') :
    (do let id ← Edit.allocate kind; Edit.ownOrRelease id (own id) : Edit NodeId) a
      = if a.slots.size < slotLimit then .ok a.nextId a' else .error (.full a.slots.size) a := by
  split
  next room =>
    have allocated : Edit.allocate kind a = .ok a.nextId (a.push kind) := if_pos room
    rw [Edit.bind_of_ok allocated, Edit.ownOrRelease, owned]
  next full =>
    have refused : Edit.allocate kind a = .error (.full a.slots.size) a := if_neg full
    rw [Edit.bind_of_error refused]

/-- What adding a node to an element comes to.  It takes an element and a free slot. -/
def added {κ : Type} [DecidableEq κ] (a : Arena) (shelf : Shelf κ) (element : NodeId) (key : κ)
    (kind : NodeKind) : EStateM.Result TreeError Arena NodeId :=
  match a.element element with
  | .error e => .error e a
  | .ok _ =>
    if a.slots.size < slotLimit then
      .ok a.nextId ((a.push kind).claimed shelf element a.nextId key)
    else .error (.full a.slots.size) a

section Added

variable {κ : Type} [DecidableEq κ] {shelf : Shelf κ} {key : κ}

theorem added_of_element (holds : a.element element = .ok data) :
    a.added shelf element key kind = if a.slots.size < slotLimit then
        .ok a.nextId ((a.push kind).claimed shelf element a.nextId key)
      else .error (.full a.slots.size) a := by
  rw [added, holds]

theorem added_of_error {e : TreeError} (refused : a.element element = .error e) :
    a.added shelf element key kind = .error e a := by
  rw [added, refused]

/-- What was added is the new node, and it was filed. -/
theorem eq_of_added {a' : Arena} (ran : a.added shelf element key kind = .ok id a') :
    (∃ data, a.element element = .ok data) ∧ id = a.nextId ∧
      a' = (a.push kind).claimed shelf element a.nextId key := by
  cases holds : a.element element with
  | error e =>
    rw [added_of_error holds] at ran
    cases ran
  | ok data =>
    rw [added_of_element holds] at ran
    split at ran
    next room =>
      cases ran
      exact ⟨⟨data, rfl⟩, rfl, rfl⟩
    next full => cases ran

end Added

/-! ## Edits that make a node for an element -/

section Supplies

variable {κ : Type} [DecidableEq κ] {shelf : Shelf κ} {file : κ → Place} {key : κ}
variable {own : NodeId → Edit (Option NodeId)} {add : Edit NodeId}

/-- How an edit runs that makes a node for an element.  `own` is what gives the node away. -/
structure Supplies (a : Arena) (shelf : Shelf κ) (element : NodeId) (key : κ) (kind : NodeKind)
    (own : NodeId → Edit (Option NodeId)) (add : Edit NodeId) : Prop where
  /-- The element is asked for before anything is made. -/
  runs : add a = match a.element element with
    | .ok _ => (do let id ← Edit.allocate kind; Edit.ownOrRelease id (own id) : Edit NodeId) a
    | .error e => .error e a
  /-- The new node is claimed. -/
  claims : ∀ data, a.element? element = some data →
    own a.nextId (a.push kind) = Edit.claim shelf element a.nextId key (a.push kind)

/-- In a consistent arena the claim cannot fail, so the edit comes to an addition. -/
theorem Supplies.eq_added (supplies : a.Supplies shelf element key kind own add)
    (h : a.Consistent) (laws : shelf.Lawful file) (placed : kind.place? = some (file key))
    (bare : kind.owned = []) : add a = a.added shelf element key kind := by
  rw [supplies.runs, added]
  cases holds : a.element element with
  | error e => rfl
  | ok data =>
    have found := element_eq_ok_iff.1 (element_push holds kind)
    have claimed :=
      claim_eq (h.push kind bare) laws found ((place?_nextId_push a kind).trans placed)
    rw [← supplies.claims data (element_eq_ok_iff.1 holds)] at claimed
    exact allocate_ownOrRelease_eq claimed

end Supplies

/-- Where there is an element, the first slot is taken. -/
theorem nextId_ne_xmlDeclaration (found : a.element? element = some data) :
    a.nextId ≠ xmlDeclaration := fun same =>
  absurd (congrArg NodeId.index same)
    (Nat.ne_of_gt (Nat.zero_lt_of_lt (index_lt_of_contains (contains_of_element? found))))

theorem supplies_addAttribute (a : Arena) (element : NodeId) (namespaceUri : Option String)
    (qualifiedName localName value : String) :
    a.Supplies .attributes element ⟨namespaceUri, localName⟩
      (.attr ⟨namespaceUri, localName, qualifiedName, value⟩) (Edit.setAttribute element)
      (Edit.addAttribute element namespaceUri qualifiedName localName value) where
  runs := by
    rw [Edit.addAttribute, Edit.discard_query_bind]
    cases a.element element <;> rfl
  claims data found := by
    have entry := attributeData_eq_ok_iff.2 ⟨_, (find?_push a
      (.attr ⟨namespaceUri, localName, qualifiedName, value⟩) a.nextId).trans (if_pos rfl), rfl⟩
    rw [Edit.setAttribute, Edit.discard_query_bind, element_push (element_eq_ok_iff.2 found)]
    show (Edit.query (·.attributeData a.nextId) >>= _ : Edit (Option NodeId)) _ = _
    rw [Edit.query_bind, entry]
    rfl

theorem supplies_addNamespace (a : Arena) (element : NodeId) (nsPrefix : Option String)
    (uri : String) :
    a.Supplies .declarations element nsPrefix (.namespaceDecl ⟨nsPrefix, uri⟩)
      (Edit.setNamespace element) (Edit.addNamespace element nsPrefix uri) where
  runs := by
    rw [Edit.addNamespace, Edit.discard_query_bind]
    cases a.element element <;> rfl
  claims data found := by
    have entry := namespaceData_eq_ok_iff.2 ⟨_, (find?_push a
      (.namespaceDecl ⟨nsPrefix, uri⟩) a.nextId).trans (if_pos rfl), rfl⟩
    rw [Edit.setNamespace, if_neg (nextId_ne_xmlDeclaration found)]
    show (discard (Edit.query (·.element element)) >>= _ : Edit (Option NodeId)) _ = _
    rw [Edit.discard_query_bind, element_push (element_eq_ok_iff.2 found)]
    show (Edit.query (·.namespaceData a.nextId) >>= _ : Edit (Option NodeId)) _ = _
    rw [Edit.query_bind, entry]

/-- A new attribute is filed under its own name. -/
theorem addAttribute_eq (h : a.Consistent) (element : NodeId) (namespaceUri : Option String)
    (qualifiedName localName value : String) :
    Edit.addAttribute element namespaceUri qualifiedName localName value a
      = a.added .attributes element ⟨namespaceUri, localName⟩
        (.attr ⟨namespaceUri, localName, qualifiedName, value⟩) :=
  (supplies_addAttribute a element namespaceUri qualifiedName localName value).eq_added h
    Shelf.attributes_lawful rfl rfl

/-- A new declaration is filed under its own prefix. -/
theorem addNamespace_eq (h : a.Consistent) (element : NodeId) (nsPrefix : Option String)
    (uri : String) :
    Edit.addNamespace element nsPrefix uri a
      = a.added .declarations element nsPrefix (.namespaceDecl ⟨nsPrefix, uri⟩) :=
  (supplies_addNamespace a element nsPrefix uri).eq_added h Shelf.declarations_lawful rfl rfl

end XmlTree.Arena
