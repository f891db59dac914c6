import XmlTree.Proofs.Ownership.Create
import XmlTree.Proofs.Ownership.Release

/-!
# Additions to any element

An edit that adds an attribute or a declaration makes a node and gives it to an element.
Should the giving fail, the edit releases the new node again, so that nothing is left of it.

In a sound arena the giving never fails.  An arena that has been read from somewhere may have
an element with an entry that *dangles*: it names a node that is not there (`Dangles`).  A new
node under the same key takes over the entry, and its owner too, before the edit looks for the
node that it has replaced, in vain.  Then the release comes too late.  It is refused, since
the new node is owned, and so the node stays (`Additive.stranded`).

No other failure leaves anything behind.  So a failing addition leaves every node as it was
exactly when no entry dangles under the key or no slot is free (`Additive.intact`).
-/

namespace XmlTree.Arena

variable {κ : Type} [DecidableEq κ] {shelf : Shelf κ} {file : κ → Place}
variable {a a' : Arena} {element id : NodeId} {key : κ} {kind : NodeKind} {data : ElementData}

/-! ## Entries that dangle -/

/-- An element has an entry under a key for a node that is not there, and that will not be
there either when the next node is made. -/
def Dangles (a : Arena) (shelf : Shelf κ) (element : NodeId) (key : κ) : Prop :=
  ∃ old, a.occupant? shelf element key = some old ∧ a.contains old = false ∧ old ≠ a.nextId

theorem element?_push_of_element? (found : a.element? element = some data) (kind : NodeKind) :
    (a.push kind).element? element = some data :=
  element_eq_ok_iff.1 (element_push (element_eq_ok_iff.2 found) kind)

theorem occupant?_push (found : a.element? element = some data) (kind : NodeKind) (key : κ) :
    (a.push kind).occupant? shelf element key = a.occupant? shelf element key := by
  rw [occupant?, occupant?, shelfAt_of_element? shelf found,
    shelfAt_of_element? shelf (element?_push_of_element? found kind)]

theorem contains_nextId_push (a : Arena) (kind : NodeKind) :
    (a.push kind).contains a.nextId = true :=
  contains_iff.2 ⟨_, (find?_push a kind a.nextId).trans (if_pos rfl)⟩

theorem owner?_nextId_push (a : Arena) (kind : NodeKind) :
    (a.push kind).owner? a.nextId = none := by
  rw [owner?_push, owner?, find?_nextId]
  rfl

/-! ## Giving a new node -/

theorem leaveOwner_of_unowned (live : a.contains id = true) (unowned : a.owner? id = none)
    (shelf : Shelf κ) (element : NodeId) (key : κ) :
    Edit.leaveOwner shelf element id key a = .ok () a := by
  obtain ⟨node, found⟩ := contains_iff.1 live
  have named : a.parent id = .ok none := by
    rw [Arena.parent, get_of_find? found]
    exact congrArg Except.ok ((owner?_of_find? found).symm.trans unowned)
  rw [Edit.leaveOwner, Edit.query_bind, named]
  rfl

/-- A new node leaves no one, so it is filed as it is. -/
theorem claim_nextId (found : a.element? element = some data) (kind : NodeKind) (key : κ) :
    Edit.claim shelf element a.nextId key (a.push kind)
      = match (a.occupant? shelf element key).filter (· ≠ a.nextId) with
        | none => .ok none ((a.push kind).filed shelf element a.nextId key)
        | some old =>
          if a.contains old = true then
            .ok (some old) (((a.push kind).filed shelf element a.nextId key).disowned (some old))
          else .error (.notFound old) ((a.push kind).filed shelf element a.nextId key) := by
  have live := contains_nextId_push a kind
  have left := leaveOwner_of_unowned live (owner?_nextId_push a kind) shelf element key
  rw [claim_of_left left (element?_push_of_element? found kind) live, occupant?_push found]
  cases stands : (a.occupant? shelf element key).filter (· ≠ a.nextId) with
  | none => rfl
  | some old =>
    have other : old ≠ a.nextId := by simpa using (Option.filter_eq_some_iff.1 stands).2
    have same : (a.push kind).contains old = a.contains old := by
      rw [Arena.contains, Arena.contains, find?_push, if_neg (Ne.symm other)]
    dsimp only
    rw [same]

theorem claim_nextId_of_not_dangles (found : a.element? element = some data)
    (whole : ¬ a.Dangles shelf element key) (kind : NodeKind) :
    ∃ old a', Edit.claim shelf element a.nextId key (a.push kind) = .ok old a' := by
  rw [claim_nextId found]
  cases stands : (a.occupant? shelf element key).filter (· ≠ a.nextId) with
  | none => exact ⟨_, _, rfl⟩
  | some old =>
    obtain ⟨filed, other⟩ := Option.filter_eq_some_iff.1 stands
    have there : a.contains old = true := by
      by_contra gone
      exact whole ⟨old, filed, Bool.eq_false_iff.2 gone, by simpa using other⟩
    exact ⟨_, _, if_pos there⟩

theorem claim_nextId_of_dangles (found : a.element? element = some data)
    (dangles : a.Dangles shelf element key) (kind : NodeKind) :
    ∃ e, Edit.claim shelf element a.nextId key (a.push kind)
      = .error e ((a.push kind).filed shelf element a.nextId key) := by
  obtain ⟨old, stands, gone, other⟩ := dangles
  have kept : (some old).filter (· ≠ a.nextId) = some old := by simp [other]
  rw [claim_nextId found, stands, kept]
  exact ⟨_, if_neg (Bool.eq_false_iff.1 gone)⟩

/-! ## Taking it back -/

theorem find?_nextId_filed (found : a.element? element = some data) (kind : NodeKind) (key : κ) :
    ((a.push kind).filed shelf element a.nextId key).find? a.nextId
      = some ⟨a.nextId, some element, kind⟩ := by
  obtain ⟨node, live, _⟩ := exists_find?_of_element? found
  have other : element ≠ a.nextId := Ne.symm (nextId_ne_of_find? live)
  rw [filed, find?_update, if_pos rfl, find?_update, if_neg other, find?_push, if_pos rfl]
  rfl

/-- A node that has been filed is not released any more. -/
theorem release_nextId_filed (found : a.element? element = some data) (kind : NodeKind) (key : κ) :
    Edit.release a.nextId ((a.push kind).filed shelf element a.nextId key)
      = .error (.hierarchy (.stillOwned a.nextId element))
        ((a.push kind).filed shelf element a.nextId key) := by
  rw [release_eq, if_neg (nextId_ne_xmlDeclaration found), find?_nextId_filed found]

theorem occupant?_filed (laws : shelf.Lawful file) (found : a.element? element = some data) :
    (a.filed shelf element id key).occupant? shelf element key = some id := by
  apply laws.lists_iff.1
  rw [filed, lists_withParent, laws.lists_insert found, if_pos ⟨rfl, rfl⟩]

/-! ## Additions -/

/-- Two arenas have the same nodes and count as many. -/
structure Intact (a a' : Arena) : Prop where
  /-- The same identities are live, and their nodes are the same. -/
  nodes : ∀ x, a'.find? x = a.find? x
  /-- The count is the same. -/
  live : a'.live = a.live

/-- How an edit ends that adds a node to an element. -/
structure Additive (a : Arena) (shelf : Shelf κ) (element : NodeId) (key : κ) (kind : NodeKind)
    (add : Edit NodeId) : Prop where
  /-- A failure leaves everything as it was, unless a slot is free and the entry dangles. -/
  intact : (∀ e a', add a = .error e a' → a.Intact a')
    ↔ ¬ (a.slots.size < slotLimit ∧ a.Dangles shelf element key)
  /-- In that case the edit fails and the new node stays: it is live and counted, the element
  owns it and has it under the key. -/
  stranded : a.slots.size < slotLimit → a.Dangles shelf element key → ∃ a',
    add a = .error (.hierarchy (.stillOwned a.nextId element)) a' ∧
      a'.find? a.nextId = some ⟨a.nextId, some element, kind⟩ ∧
        a'.occupant? shelf element key = some a.nextId ∧ a'.live = a.live + 1

section Supplies

variable {own : NodeId → Edit (Option NodeId)} {add : Edit NodeId}

theorem exists_element?_of_dangles (laws : shelf.Lawful file)
    (dangles : a.Dangles shelf element key) : ∃ data, a.element? element = some data := by
  obtain ⟨old, stands, _⟩ := dangles
  exact exists_element?_of_lists laws (laws.lists_iff.2 stands)

/-- With a free slot, the edit is the claim of the new node, and the release if that fails. -/
theorem Supplies.run_of_room (supplies : a.Supplies shelf element key kind own add)
    (found : a.element? element = some data) (room : a.slots.size < slotLimit) :
    add a = Edit.ownOrRelease a.nextId (Edit.claim shelf element a.nextId key) (a.push kind) := by
  have allocated : Edit.allocate kind a = .ok a.nextId (a.push kind) := if_pos room
  rw [supplies.runs, element_eq_ok_iff.2 found]
  show (Edit.allocate kind >>= _ : Edit NodeId) a = _
  rw [Edit.bind_of_ok allocated, Edit.ownOrRelease, Edit.ownOrRelease, supplies.claims data found]

theorem Supplies.stranded (supplies : a.Supplies shelf element key kind own add)
    (laws : shelf.Lawful file) (room : a.slots.size < slotLimit)
    (dangles : a.Dangles shelf element key) :
    add a = .error (.hierarchy (.stillOwned a.nextId element))
      ((a.push kind).filed shelf element a.nextId key) := by
  obtain ⟨data, found⟩ := exists_element?_of_dangles laws dangles
  obtain ⟨e, claimed⟩ := claim_nextId_of_dangles found dangles kind
  rw [supplies.run_of_room found room, Edit.ownOrRelease, claimed]
  dsimp only
  rw [release_nextId_filed found kind key]

theorem Supplies.eq_of_error (supplies : a.Supplies shelf element key kind own add) {e : TreeError}
    (whole : ¬ (a.slots.size < slotLimit ∧ a.Dangles shelf element key))
    (failed : add a = .error e a') : a' = a := by
  cases holds : a.element element with
  | error e' =>
    rw [supplies.runs, holds] at failed
    cases failed
    rfl
  | ok data =>
    by_cases room : a.slots.size < slotLimit
    · have found := element_eq_ok_iff.1 holds
      obtain ⟨old, b, claimed⟩ :=
        claim_nextId_of_not_dangles found (fun dangles => whole ⟨room, dangles⟩) kind
      rw [supplies.run_of_room found room, Edit.ownOrRelease, claimed] at failed
      cases failed
    · have refused : Edit.allocate kind a = .error (.full a.slots.size) a := if_neg room
      have ends : (do let id ← Edit.allocate kind; Edit.ownOrRelease id (own id) : Edit NodeId) a
          = .error (.full a.slots.size) a := Edit.bind_of_error refused
      rw [supplies.runs, holds] at failed
      cases ends.symm.trans failed
      rfl

theorem Supplies.additive (supplies : a.Supplies shelf element key kind own add)
    (laws : shelf.Lawful file) : a.Additive shelf element key kind add where
  intact := by
    constructor
    · rintro intact ⟨room, dangles⟩
      obtain ⟨data, found⟩ := exists_element?_of_dangles laws dangles
      have same := (intact _ _ (supplies.stranded laws room dangles)).nodes a.nextId
      rw [find?_nextId_filed found kind key, find?_nextId] at same
      cases same
    · intro whole e a' failed
      rw [supplies.eq_of_error whole failed]
      exact ⟨fun _ => rfl, rfl⟩
  stranded room dangles := by
    obtain ⟨data, found⟩ := exists_element?_of_dangles laws dangles
    exact ⟨_, supplies.stranded laws room dangles, find?_nextId_filed found kind key,
      occupant?_filed laws (element?_push_of_element? found kind), rfl⟩

end Supplies

/-- The additions of attributes and of declarations to the elements of an arena. -/
structure AdditionLaws (a : Arena) : Prop where
  /-- An attribute goes under its own expanded name. -/
  attributes : ∀ element namespaceUri qualifiedName localName value,
    a.Additive .attributes element ⟨namespaceUri, localName⟩
      (.attr ⟨namespaceUri, localName, qualifiedName, value⟩)
      (Edit.addAttribute element namespaceUri qualifiedName localName value)
  /-- A declaration goes under its own prefix. -/
  declarations : ∀ element nsPrefix uri,
    a.Additive .declarations element nsPrefix (.namespaceDecl ⟨nsPrefix, uri⟩)
      (Edit.addNamespace element nsPrefix uri)

/-- In any arena, even one that contradicts itself, a failing addition leaves everything as it
was exactly when no entry dangles under its key or no slot is free. -/
theorem additionLaws (a : Arena) : a.AdditionLaws where
  attributes element namespaceUri qualifiedName localName value :=
    (supplies_addAttribute a element namespaceUri qualifiedName localName value).additive
      Shelf.attributes_lawful
  declarations element nsPrefix uri :=
    (supplies_addNamespace a element nsPrefix uri).additive Shelf.declarations_lawful

/-- An arena with one element, whose map names an attribute that is not there. -/
def dangling : Arena where
  slots := #[some xmlDeclarationNode,
    some ⟨⟨1⟩, none, .element ⟨none, "e", "e", .insert ∅ ⟨none, "k"⟩ ⟨9⟩, ∅, []⟩⟩]
  live := 1
  config := {}

/-- No node has an owner or children, and yet an attribute that is refused stays behind. -/
theorem stranded_of_dangling_entry :
    (∀ x, dangling.owner? x = none ∧ dangling.childrenAt x = []) ∧
      ∃ a', Edit.addAttribute ⟨1⟩ none "k" "k" "v" dangling
          = .error (.hierarchy (.stillOwned ⟨2⟩ ⟨1⟩)) a' ∧
        dangling.contains ⟨2⟩ = false ∧ dangling.live = 1 ∧
          a'.contains ⟨2⟩ = true ∧ a'.live = 2 := by
  refine ⟨fun ⟨index⟩ => ?_, _, rfl, rfl, rfl, rfl, rfl⟩
  match index with
  | 0 => exact ⟨rfl, rfl⟩
  | 1 => exact ⟨rfl, rfl⟩
  | _ + 2 => exact ⟨rfl, rfl⟩

end XmlTree.Arena
