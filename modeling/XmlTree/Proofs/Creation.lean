import XmlTree.Proofs.Independence.Confined

/-!
# Commands that make nodes

A command either makes one node or none.  One that makes a node answers with the next free
identity and puts a payload of its own into that slot (`Command.creation`), where it stays
alone or is filed by an element (`Arena.Makes`).  Apart from that slot, all commands leave
the core of every node alone and fill no slot (`Command.spares`): what lived before and
still lives is what it was.
-/

namespace XmlTree

open Arena

variable {a a' : Arena} {documentNumber : Nat} {command : Command} {reply : Reply}

/-- The payload of the node that a command makes, before anything else happens to it. -/
def Command.payload? (documentNumber : Nat) : Command → Option NodeKind
  | createDocument uri => some (.document ⟨documentNumber, uri, []⟩)
  | createElement namespaceUri qualifiedName =>
      some (.element ⟨namespaceUri, (QName.ofString qualifiedName).localName, qualifiedName,
        ∅, ∅, []⟩)
  | createAttribute namespaceUri qualifiedName localName value
  | addAttribute _ namespaceUri qualifiedName localName value =>
      some (.attr ⟨namespaceUri, localName, qualifiedName, value⟩)
  | createNamespace nsPrefix uri | addNamespace _ nsPrefix uri =>
      some (.namespaceDecl ⟨nsPrefix, uri⟩)
  | createText value => some (.text value)
  | createComment value => some (.comment value)
  | _ => none

namespace Command

theorem creates_eq_isSome_payload? (documentNumber : Nat) (command : Command) :
    command.creates = (command.payload? documentNumber).isSome := by
  cases command <;> rfl

/-- What is made owns nothing. -/
theorem owned_of_payload? {kind : NodeKind} (makes : command.payload? documentNumber = some kind) :
    kind.owned = [] := by
  cases command with
  | createDocument _ | createElement _ _ | createAttribute _ _ _ _ | createNamespace _ _
  | createText _ | createComment _ | addAttribute _ _ _ _ _ | addNamespace _ _ _ =>
    cases makes
    rfl
  | _ => cases makes

/-- The only command that makes a document gives it the number it gets. -/
theorem document_of_payload? {data : DocumentData}
    (makes : command.payload? documentNumber = some (.document data)) :
    command.isCreateDocument = true ∧ data.index = documentNumber := by
  cases command with
  | createDocument uri => cases makes; exact ⟨rfl, rfl⟩
  | _ => cases makes

end Command

/-! ## Filling a slot -/

theorem Edit.allocate_ok {kind : NodeKind} {id : NodeId} (ran : allocate kind a = .ok id a') :
    id = a.nextId ∧ a' = a.push kind := by
  rw [allocate] at ran
  split at ran
  next room =>
    cases ran
    exact ⟨rfl, rfl⟩
  next full => cases ran

theorem Arena.alike_univ (a : Arena) : a.Alike Set.univ a where
  size := rfl
  config := rfl
  find? _ _ := rfl
  closed _ _ _ _ := ⟨fun _ _ => trivial, fun _ _ => trivial⟩

theorem Arena.Consistent.spares_claimed (h : a.Consistent) {κ : Type} [DecidableEq κ]
    {shelf : Shelf κ} {file : κ → Place} (laws : shelf.Lawful file) {element id : NodeId} {key : κ}
    {data : ElementData} (found : a.element? element = some data)
    (placed : a.place? id = some (file key)) :
    a.Spares Set.univ (a.claimed shelf element id key) := by
  have runs :=
    Edit.confined_claim laws (Set.mem_univ element) (Set.mem_univ id) key a a a.alike_univ
  rw [Edit.outcome_of_ok (claim_eq h laws found placed)] at runs
  exact runs.spares

/-- What making a node comes to: its slot is filled, and an element may file it. -/
inductive Arena.Makes (a : Arena) (kind : NodeKind) : Arena → Prop
  /-- The node stays alone. -/
  | alone : Makes a kind (a.push kind)
  /-- An element files the node in the place that it asks for. -/
  | filed {κ : Type} [DecidableEq κ] {shelf : Shelf κ} {file : κ → Place}
      (laws : shelf.Lawful file) {element : NodeId} {key : κ} {data : ElementData}
      (found : (a.push kind).element? element = some data)
      (placed : (a.push kind).place? a.nextId = some (file key)) :
      Makes a kind ((a.push kind).claimed shelf element a.nextId key)

/-- A node that is added gets the next free identity and is filed. -/
theorem Arena.makes_of_added {κ : Type} [DecidableEq κ] {shelf : Shelf κ} {file : κ → Place}
    (laws : shelf.Lawful file) {element id : NodeId} {key : κ} {kind : NodeKind}
    (placed : kind.place? = some (file key)) (ran : a.added shelf element key kind = .ok id a') :
    id = a.nextId ∧ a.Makes kind a' := by
  obtain ⟨⟨_, holds⟩, rfl, rfl⟩ := eq_of_added ran
  have found := (find?_push a kind a.nextId).trans (if_pos rfl)
  exact ⟨rfl, .filed laws (element_eq_ok_iff.1 (element_push holds kind))
    ((place?_of_find? found).trans placed)⟩

namespace Arena.Makes

variable {kind : NodeKind}

/-- Apart from the new slot, no core is touched. -/
theorem spares (makes : a.Makes kind a') (h : a.Consistent) (bare : kind.owned = []) :
    (a.push kind).Spares Set.univ a' := by
  cases makes with
  | alone => exact .refl _ _
  | filed laws found placed => exact (h.push kind bare).spares_claimed laws found placed

/-- Apart from the new slot, nodes are only linked anew. -/
theorem relinks (makes : a.Makes kind a') (h : a.Consistent) (bare : kind.owned = []) :
    (a.push kind).Relinks a' := by
  cases makes with
  | alone => exact .refl _
  | filed laws found placed =>
    exact relinks_claimed (h.push kind bare) laws found placed (nextId_ne_of_find? h.builtIn)

end Arena.Makes

/-! ## Commands -/

namespace Command

/-- A command that makes a node answers with the next free identity, and the node has the
payload of the command. -/
theorem creation (h : a.Consistent) {kind : NodeKind}
    (payload : command.payload? documentNumber = some kind)
    (ran : command.edit documentNumber a = .ok reply a') :
    reply = .made a.nextId ∧ a.Makes kind a' := by
  have fresh : (Reply.made <$> Edit.allocate kind) a = .ok reply a' →
      reply = .made a.nextId ∧ a.Makes kind a' := by
    intro filled
    obtain ⟨id, allocated, rfl⟩ := Edit.map_run_eq_ok_iff.1 filled
    obtain ⟨rfl, rfl⟩ := Edit.allocate_ok allocated
    exact ⟨rfl, .alone⟩
  cases command with
  | createDocument _ | createAttribute _ _ _ _ | createNamespace _ _ | createText _
  | createComment _ =>
    cases payload
    exact fresh ran
  | createElement namespaceUri qualifiedName =>
    cases payload
    rw [edit, Edit.createElement] at ran
    split at ran
    next unbound => cases ran
    next bound => exact fresh ran
  | addAttribute element namespaceUri qualifiedName localName value =>
    cases payload
    obtain ⟨id, added, rfl⟩ := Edit.map_run_eq_ok_iff.1 ran
    rw [addAttribute_eq h] at added
    obtain ⟨rfl, makes⟩ := makes_of_added Shelf.attributes_lawful rfl added
    exact ⟨rfl, makes⟩
  | addNamespace element nsPrefix uri =>
    cases payload
    obtain ⟨id, added, rfl⟩ := Edit.map_run_eq_ok_iff.1 ran
    rw [addNamespace_eq h] at added
    obtain ⟨rfl, makes⟩ := makes_of_added Shelf.declarations_lawful rfl added
    exact ⟨rfl, makes⟩
  | _ => cases payload

/-- A command that makes a node answers with the next free identity.  What it makes has
the payload of the command, and what it does besides touches no core. -/
theorem makes (h : a.Consistent) {kind : NodeKind}
    (payload : command.payload? documentNumber = some kind)
    (ran : command.edit documentNumber a = .ok reply a') :
    reply = .made a.nextId ∧ (a.push kind).Spares Set.univ a' := by
  obtain ⟨answer, makes⟩ := creation h payload ran
  exact ⟨answer, makes.spares h (owned_of_payload? payload)⟩

/-- A command that makes no node names none as made, and touches no core. -/
theorem spares (nothing : command.payload? documentNumber = none)
    (ran : command.edit documentNumber a = .ok reply a') :
    (∀ id, reply ≠ .made id) ∧ a.Spares Set.univ a' := by
  have makesNothing : command.creates = false := by
    rw [creates_eq_isSome_payload? documentNumber, nothing, Option.isSome_none]
  have runs := command.confined makesNothing (fun id _ => Set.mem_univ id) documentNumber a a
    a.alike_univ
  rw [Edit.outcome_of_ok ran] at runs
  refine ⟨?_, runs.spares⟩
  cases command with
  | createDocument _ | createElement _ _ | createAttribute _ _ _ _ | createNamespace _ _
  | createText _ | createComment _ | addAttribute _ _ _ _ _ | addNamespace _ _ _ => cases nothing
  | _ =>
    obtain ⟨_, _, rfl⟩ := Edit.map_run_eq_ok_iff.1 ran
    exact fun _ => Reply.noConfusion

end Command

end XmlTree
