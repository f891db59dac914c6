import XmlTree.Proofs.Independence.Confined

/-!
# Edits that only link

Most edits move nodes: they change who owns whom and what an owner lists.  What a node says
besides, its names, its value, its address, they leave alone.  That is the `content` of its
payload, and an edit *links* when every identity has the content afterwards that it had
before, whether the edit succeeds or fails.

Linking goes through an edit step by step.  A question changes nothing, and each change that
a moving edit makes is one of an owner, of a child list or of a map.
-/

namespace XmlTree

/-! ## Content -/

/-- What a payload says, apart from what it lists. -/
def NodeKind.content : NodeKind → NodeKind
  | document data => .document { data with children := [] }
  | element data => .element { data with attributes := ∅, declarations := ∅, children := [] }
  | kind => kind

theorem NodeKind.content_mapChildren (g : List NodeId → List NodeId) (kind : NodeKind) :
    (kind.mapChildren g).content = kind.content := by
  cases kind <;> rfl

/-- No map on the shelf is part of the content. -/
def Shelf.Links {κ : Type} (shelf : Shelf κ) : Prop :=
  ∀ map data, (NodeKind.element (shelf.replace map data)).content = (NodeKind.element data).content

theorem Shelf.attributes_links : attributes.Links := fun _ _ => rfl

theorem Shelf.declarations_links : declarations.Links := fun _ _ => rfl

theorem Shelf.Links.content_mapElement {κ : Type} {shelf : Shelf κ} (links : shelf.Links)
    (g : ElementData → OrderedMap κ NodeId) (kind : NodeKind) :
    (kind.mapElement fun data => shelf.replace (g data) data).content = kind.content := by
  cases kind with
  | element data => exact links (g data) data
  | _ => rfl

namespace Arena

variable {a a' : Arena} {id x : NodeId} {f : Node → Node}

/-- The content of the node in the slot of `id`. -/
def content? (a : Arena) (id : NodeId) : Option NodeKind := (a.find? id).map (·.kind.content)

theorem contains_eq_isSome_content? (a : Arena) (x : NodeId) :
    a.contains x = (a.content? x).isSome := by
  rw [content?, Option.isSome_map, Arena.contains]

theorem content?_update (keeps : ∀ node, (f node).kind.content = node.kind.content) (x : NodeId) :
    (a.update id f).content? x = a.content? x := by
  rw [content?, map_find?_update fun node _ => keeps node, content?]

end Arena

/-! ## Linking edits -/

namespace Edit

variable {α β : Type}

/-- Every identity has the same content after the edit as before it. -/
def Links (edit : Edit α) : Prop :=
  ∀ (a : Arena) (x : NodeId), (edit.outcome a).2.content? x = a.content? x

namespace Links

theorem pure (v : α) : Links (Pure.pure v : Edit α) := fun _ _ => rfl

theorem throw (e : TreeError) : Links (MonadExcept.throw e : Edit α) := fun _ _ => rfl

theorem throw_bind (e : TreeError) (next : α → Edit β) :
    Links ((MonadExcept.throw e : Edit α) >>= next) := fun _ _ => rfl

theorem bind {first : Edit α} {next : α → Edit β} (h : Links first)
    (later : ∀ v, Links (next v)) : Links (first >>= next) := by
  intro a x
  have kept := h a x
  cases ran : first a with
  | ok v a' =>
    rw [outcome_of_ok ran] at kept
    rw [outcome, bind_of_ok ran]
    exact (later v a' x).trans kept
  | error e a' =>
    rw [outcome_of_error ran] at kept
    rw [outcome_of_error (bind_of_error ran)]
    exact kept

theorem map {edit : Edit α} (h : Links edit) (f : α → β) : Links (f <$> edit) := by
  rw [map_eq_pure_bind]
  exact h.bind fun v => .pure (f v)

theorem ite {c : Prop} [Decidable c] {yes no : Edit α} (h : Links yes) (h' : Links no) :
    Links (if c then yes else no) := by
  split
  · exact h
  · exact h'

end Links

theorem links_query (question : Arena → Except TreeError α) : Links (query question) := by
  intro a x
  rw [outcome, query_run]
  cases question a <;> rfl

theorem links_discard_query (question : Arena → Except TreeError α) :
    Links (discard (query question)) :=
  (links_query question).map fun _ => ()

theorem links_change {id : NodeId} {f : Node → Node}
    (keeps : ∀ node, (f node).kind.content = node.kind.content) : Links (change id f) := by
  intro a x
  rw [outcome, change]
  cases a.contains id with
  | true => exact Arena.content?_update keeps x
  | false => rfl

theorem links_setParent (id : NodeId) (parent : Option NodeId) : Links (setParent id parent) :=
  links_change fun _ => rfl

theorem links_mapChildren (id : NodeId) (g : List NodeId → List NodeId) :
    Links (change id (Node.mapChildren g)) :=
  links_change fun node => node.kind.content_mapChildren g

/-! ## Children -/

theorem links_detach (child : NodeId) : Links (detach child) := by
  refine .bind (links_query _) fun owner => ?_
  cases owner with
  | none => exact .pure ()
  | some owner =>
    refine .bind (links_query _) fun siblings => .ite ?_ (.throw_bind _ _)
    exact .bind (links_mapChildren _ _) fun _ => links_setParent _ _

theorem links_attach (parent child : NodeId) (place : List NodeId → List NodeId) :
    Links (attach parent child place) :=
  .bind (links_discard_query _) fun _ =>
    .bind (links_mapChildren _ _) fun _ => links_setParent _ _

theorem links_appendChild (parent child : NodeId) : Links (appendChild parent child) :=
  .bind (links_query _) fun _ =>
    .bind (links_detach child) fun _ => links_attach parent child _

theorem links_insertBefore (parent child reference : NodeId) :
    Links (insertBefore parent child reference) := by
  refine .bind (links_query _) fun node => .ite (.throw_bind _ _) (.ite (.pure ()) ?_)
  refine .bind (links_query _) fun _ => .bind (links_query _) fun siblings => ?_
  cases placeBefore siblings child reference with
  | none => exact .throw _
  | some position => exact .bind (links_detach child) fun _ => links_attach parent child _

theorem links_removeChild (parent child : NodeId) : Links (removeChild parent child) :=
  .bind (links_query _) fun _ => .ite (.throw_bind _ _) (.ite (links_detach child) (.throw _))

/-! ## Shelves -/

section Shelves

variable {κ : Type} [DecidableEq κ] {shelf : Shelf κ}

theorem links_insert (links : shelf.Links) (element id : NodeId) (key : κ) :
    Links (change element (shelf.insert key id)) :=
  links_change fun node => links.content_mapElement _ node.kind

theorem links_erase (links : shelf.Links) (element : NodeId) (key : κ) :
    Links (change element (shelf.erase key)) :=
  links_change fun node => links.content_mapElement _ node.kind

theorem links_leaveOwner (links : shelf.Links) (element id : NodeId) (key : κ) :
    Links (leaveOwner shelf element id key) := by
  refine .bind (links_query _) fun owner => ?_
  cases owner with
  | none => exact .pure ()
  | some owner =>
    refine .bind (links_query _) fun listed => .ite ?_ (.throw_bind _ _)
    exact .ite (.pure ()) (links_erase links owner key)

theorem links_claim (links : shelf.Links) (element id : NodeId) (key : κ) :
    Links (claim shelf element id key) := by
  refine .bind (links_leaveOwner links element id key) fun _ => ?_
  refine .bind (links_query _) fun occupant => ?_
  refine .bind (links_insert links element id key) fun _ => .bind (links_setParent _ _) fun _ => ?_
  cases occupant with
  | none => exact .pure none
  | some old => exact .ite (.pure none) (.bind (links_setParent _ _) fun _ => .pure _)

theorem links_discharge (links : shelf.Links) (element : NodeId) (key : κ) :
    Links (discharge shelf element key) := by
  refine .bind (links_query _) fun occupant => ?_
  cases occupant with
  | none => exact .pure none
  | some id =>
    refine .bind (links_erase links element key) fun _ => ?_
    exact .bind (links_setParent _ _) fun _ => .pure _

theorem links_setAttribute (element id : NodeId) : Links (setAttribute element id) :=
  .bind (links_discard_query _) fun _ => .bind (links_query _) fun _ =>
    links_claim Shelf.attributes_links _ _ _

theorem links_setNamespace (element id : NodeId) : Links (setNamespace element id) :=
  .ite (.throw_bind _ _) (.bind (links_discard_query _) fun _ => .bind (links_query _) fun _ =>
    links_claim Shelf.declarations_links _ _ _)

end Shelves

end Edit

/-! ## Commands -/

namespace Command

/-- Whether a command moves nodes and does nothing else. -/
def moves : Command → Bool
  | appendChild _ _ | insertBefore _ _ _ | removeChild _ _ | setAttribute _ _ | removeAttribute _ _
  | setNamespace _ _ | removeNamespace _ _ => true
  | _ => false

theorem links {command : Command} (moves : command.moves = true) (documentNumber : Nat) :
    (command.edit documentNumber).Links := by
  cases command with
  | appendChild parent child => exact (Edit.links_appendChild parent child).map _
  | insertBefore parent child reference =>
    exact (Edit.links_insertBefore parent child reference).map _
  | removeChild parent child => exact (Edit.links_removeChild parent child).map _
  | setAttribute element id => exact (Edit.links_setAttribute element id).map _
  | removeAttribute element name =>
    exact (Edit.links_discharge Shelf.attributes_links element name).map _
  | setNamespace element id => exact (Edit.links_setNamespace element id).map _
  | removeNamespace element nsPrefix =>
    exact (Edit.links_discharge Shelf.declarations_links element nsPrefix).map _
  | _ => cases moves

end Command

end XmlTree
