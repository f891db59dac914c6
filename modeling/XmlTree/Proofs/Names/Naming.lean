import XmlTree.Proofs.Creation
import XmlTree.Proofs.Linking

/-!
# The names of elements

An element has an expanded name and a name as it is written (`Naming`).  Both come from the
command that makes the element.  After that only `setPrefix` changes what is written, and
nothing changes the expanded name.

`Command.naming` says this as a function: from the names before a command that succeeds it
gives the names after it.  `Command.naming?_of_ok` is the one fact about the steps of an
arena that the laws of names use.
-/

namespace XmlTree

open Arena

/-! ## Names -/

/-- How an element is named. -/
structure Naming where
  /-- The expanded name. -/
  expandedName : ExpandedName
  /-- The name as written. -/
  qualifiedName : String
deriving DecidableEq

namespace Naming

/-- The names of a new element. -/
def create (namespaceUri : Option String) (qualifiedName : String) : Naming :=
  ⟨⟨namespaceUri, (QName.ofString qualifiedName).localName⟩, qualifiedName⟩

/-- The names of an element that is written with a prefix from now on, or with none. -/
def withPrefix (nsPrefix : Option String) (naming : Naming) : Naming :=
  { naming with qualifiedName := (QName.mk nsPrefix naming.expandedName.localName).toString }

end Naming

/-- The names of an element. -/
def ElementData.naming (data : ElementData) : Naming := ⟨data.expandedName, data.qualifiedName⟩

/-- The names that a payload has, if it is that of an element. -/
def NodeKind.naming? : NodeKind → Option Naming
  | element data => some data.naming
  | _ => none

theorem NodeKind.naming?_content (kind : NodeKind) : kind.content.naming? = kind.naming? := by
  cases kind <;> rfl

namespace Arena

variable {a a' : Arena} {x : NodeId} {data : ElementData} {naming : Naming}

/-- The names of a live element. -/
def naming? (a : Arena) (x : NodeId) : Option Naming := (a.element? x).map ElementData.naming

theorem naming?_eq_bind_find? (a : Arena) (x : NodeId) :
    a.naming? x = (a.find? x).bind fun node => node.kind.naming? := by
  rw [naming?, element?, Option.map_bind]
  congr
  funext node
  obtain ⟨id, parent, kind⟩ := node
  cases kind <;> rfl

theorem naming?_eq_bind (a : Arena) (x : NodeId) :
    a.naming? x = (a.content? x).bind NodeKind.naming? := by
  simp only [naming?_eq_bind_find?, content?, Option.bind_map, Function.comp_def,
    NodeKind.naming?_content]

theorem naming?_congr (same : a'.content? x = a.content? x) : a'.naming? x = a.naming? x := by
  rw [naming?_eq_bind, naming?_eq_bind, same]

theorem naming?_update {id : NodeId} {f : Node → Node}
    (same : ∀ node, a.find? id = some node → (f node).kind.naming? = node.kind.naming?)
    (x : NodeId) : (a.update id f).naming? x = a.naming? x := by
  rw [naming?_eq_bind_find?, bind_find?_update same, naming?_eq_bind_find?]

theorem naming?_of_element? (found : a.element? x = some data) :
    a.naming? x = some data.naming := by
  rw [naming?, found, Option.map_some]

theorem exists_element?_of_naming? (named : a.naming? x = some naming) :
    ∃ data, a.element? x = some data ∧ data.naming = naming :=
  Option.map_eq_some_iff.1 named

theorem contains_of_naming? (named : a.naming? x = some naming) : a.contains x = true := by
  obtain ⟨data, found, _⟩ := exists_element?_of_naming? named
  exact contains_of_element? found

/-! ## Filling a slot -/

theorem content?_push (a : Arena) (kind : NodeKind) (x : NodeId) :
    (a.push kind).content? x = if a.nextId = x then some kind.content else a.content? x := by
  rw [content?, find?_push]
  split
  next new => rfl
  next old => rfl

theorem naming?_nextId (a : Arena) : a.naming? a.nextId = none := by
  rw [naming?_eq_bind_find?, find?_nextId, Option.bind_none]

theorem content?_claimed {κ : Type} [DecidableEq κ] {shelf : Shelf κ} (links : shelf.Links)
    (a : Arena) (element id : NodeId) (key : κ) (x : NodeId) :
    (a.claimed shelf element id key).content? x = a.content? x := by
  refine claimed_of_updates (P := fun b => b.content? x = a.content? x) rfl ?_ ?_
  · intro b y g same
    have keeps : ∀ node : Node,
        (node.mapElement fun data => shelf.replace (g data) data).kind.content
          = node.kind.content :=
      fun node => links.content_mapElement g node.kind
    rw [content?_update keeps, same]
  · intro b y parent same
    have keeps : ∀ node : Node, (node.withParent parent).kind.content = node.kind.content :=
      fun _ => rfl
    rw [content?_update keeps, same]

theorem content?_of_added {κ : Type} [DecidableEq κ] {shelf : Shelf κ} (links : shelf.Links)
    {element id : NodeId} {key : κ} {kind : NodeKind}
    (ran : a.added shelf element key kind = .ok id a') (x : NodeId) :
    a'.content? x = (a.push kind).content? x := by
  obtain ⟨_, rfl, rfl⟩ := eq_of_added ran
  exact content?_claimed links _ _ _ _ x

/-! ## Sweeping and writing -/

theorem naming?_sweep {work : List NodeId} (live : (a.sweep work).contains x = true) :
    (a.sweep work).naming? x = a.naming? x := by
  have outside : ¬ a.Covers work x := by
    intro covered
    rw [Arena.contains, find?_sweep_of_covers covered] at live
    cases live
  rw [naming?_eq_bind_find?, find?_sweep_of_not_covers outside, naming?_eq_bind_find?]

theorem exists_element?_of_setPrefix {element : NodeId} {nsPrefix : Option String}
    (ran : Edit.setPrefix element nsPrefix a = .ok () a') :
    ∃ data, a.element? element = some data := by
  rw [setPrefix_eq] at ran
  cases holds : a.element element with
  | error e =>
    rw [holds] at ran
    cases ran
  | ok data => exact ⟨data, element_eq_ok_iff.1 holds⟩

theorem naming?_setPrefix {element : NodeId} {nsPrefix : Option String}
    (ran : Edit.setPrefix element nsPrefix a = .ok () a') (x : NodeId) :
    a'.naming? x =
      if element = x then (a.naming? x).map (·.withPrefix nsPrefix) else a.naming? x := by
  obtain ⟨data, found⟩ := exists_element?_of_setPrefix ran
  rw [setPrefix_eq, element_eq_ok_iff.2 found] at ran
  dsimp only at ran
  split at ran
  next unbound => cases ran
  next bound =>
    cases ran
    by_cases here : element = x
    · subst here
      obtain ⟨node, live, same⟩ := exists_find?_of_element? found
      rw [if_pos rfl, naming?_of_element? found, naming?, element?, find?_update, if_pos rfl, live,
        Option.map_some, Option.bind_some, Node.element?_mapElement, same]
      rfl
    · rw [if_neg here, naming?, element?, find?_update, if_neg here, naming?, element?]

theorem naming?_setAttributeValue {id : NodeId} {value : String}
    (ran : Edit.setAttributeValue id value a = .ok () a') (x : NodeId) :
    a'.naming? x = a.naming? x := by
  rw [setAttributeValue_eq] at ran
  cases holds : a.attributeData id with
  | error e =>
    rw [holds] at ran
    cases ran
  | ok data =>
    rw [holds] at ran
    cases ran
    obtain ⟨node, found, kind⟩ := attributeData_eq_ok_iff.1 holds
    refine naming?_update (fun node' found' => ?_) x
    cases found.symm.trans found'
    rw [kind]
    rfl

theorem naming?_setDocumentUri {document : NodeId} {uri : Option String}
    (ran : Edit.setDocumentUri document uri a = .ok () a') (x : NodeId) :
    a'.naming? x = a.naming? x := by
  rw [setDocumentUri_eq] at ran
  cases holds : a.document document with
  | error e =>
    rw [holds] at ran
    cases ran
  | ok data =>
    rw [holds] at ran
    cases ran
    obtain ⟨node, found, kind⟩ := document_eq_ok_iff.1 holds
    refine naming?_update (fun node' found' => ?_) x
    cases found.symm.trans found'
    rw [kind]
    rfl

end Arena

/-! ## Commands -/

namespace Command

variable {a a' : Arena} {documentNumber : Nat} {command : Command} {reply : Reply} {x : NodeId}

/-- The names that an element has after a command with this reply, from those before it. -/
def naming (x : NodeId) (reply : Reply) (before : Option Naming) : Command → Option Naming
  | createElement namespaceUri qualifiedName =>
      if reply = .made x then some (.create namespaceUri qualifiedName) else before
  | setPrefix element nsPrefix =>
      if element = x then before.map (·.withPrefix nsPrefix) else before
  | _ => before

/-- A command that makes a node adds the content of the new node and changes no other. -/
theorem content?_of_made (h : a.Consistent) {kind : NodeKind}
    (payload : command.payload? documentNumber = some kind)
    (ran : command.edit documentNumber a = .ok reply a') (x : NodeId) :
    a'.content? x = (a.push kind).content? x := by
  have fresh : (Reply.made <$> Edit.allocate kind) a = .ok reply a' →
      a'.content? x = (a.push kind).content? x := by
    intro filled
    obtain ⟨id, allocated, _⟩ := Edit.map_run_eq_ok_iff.1 filled
    rw [(Edit.allocate_ok allocated).2]
  cases command with
  | createDocument _ | createAttribute _ _ _ _ | createNamespace _ _ | createText _
  | createComment _ =>
    cases payload
    exact fresh ran
  | createElement namespaceUri qualifiedName =>
    cases payload
    rw [edit, Edit.createElement] at ran
    split at ran
    next unbound => cases ran
    next bound => exact fresh ran
  | addAttribute element namespaceUri qualifiedName localName value =>
    cases payload
    obtain ⟨id, added, _⟩ := Edit.map_run_eq_ok_iff.1 ran
    rw [addAttribute_eq h] at added
    exact content?_of_added Shelf.attributes_links added x
  | addNamespace element nsPrefix uri =>
    cases payload
    obtain ⟨id, added, _⟩ := Edit.map_run_eq_ok_iff.1 ran
    rw [addNamespace_eq h] at added
    exact content?_of_added Shelf.declarations_links added x
  | _ => cases payload

/-- A new element has the names it was made with.  No other node has other names. -/
theorem naming?_of_made (h : a.Consistent) {kind : NodeKind}
    (payload : command.payload? documentNumber = some kind)
    (ran : command.edit documentNumber a = .ok reply a') (x : NodeId) :
    a'.naming? x = if reply = .made x then kind.naming? else a.naming? x := by
  obtain ⟨rfl, _⟩ := creation h payload ran
  rw [naming?_eq_bind, content?_of_made h payload ran, content?_push]
  by_cases new : a.nextId = x
  · rw [if_pos new, if_pos (congrArg Reply.made new), Option.bind_some, NodeKind.naming?_content]
  · rw [if_neg new, if_neg fun same => new (Reply.made.inj same), ← naming?_eq_bind]

/-- The names of a live node after a command that succeeds. -/
theorem naming?_of_ok (h : a.Consistent) (ran : command.edit documentNumber a = .ok reply a')
    (live : a'.contains x = true) : a'.naming? x = command.naming x reply (a.naming? x) := by
  have unnamed : ∀ kind, command.payload? documentNumber = some kind → kind.naming? = none →
      a'.naming? x = a.naming? x := by
    intro kind payload bare
    rw [naming?_of_made h payload ran, bare]
    split
    next new =>
      rw [(creation h payload ran).1] at new
      rw [← Reply.made.inj new, naming?_nextId]
    next old => rfl
  have moved : command.moves = true → a'.naming? x = a.naming? x := by
    intro moves
    have links := command.links moves documentNumber a x
    rw [Edit.outcome_of_ok ran] at links
    exact naming?_congr links
  cases command with
  | createElement namespaceUri qualifiedName => exact naming?_of_made h rfl ran x
  | createDocument _ | createAttribute _ _ _ _ | createNamespace _ _ | createText _
  | createComment _ | addAttribute _ _ _ _ _ | addNamespace _ _ _ => exact unnamed _ rfl rfl
  | appendChild _ _ | insertBefore _ _ _ | removeChild _ _ | setAttribute _ _
  | removeAttribute _ _ | setNamespace _ _ | removeNamespace _ _ => exact moved rfl
  | release top =>
    obtain ⟨_, ran, _⟩ := Edit.map_run_eq_ok_iff.1 ran
    obtain ⟨_, _, rfl⟩ := release_eq_ok_iff.1 ran
    exact naming?_sweep live
  | setPrefix element nsPrefix =>
    obtain ⟨_, ran, _⟩ := Edit.map_run_eq_ok_iff.1 ran
    exact naming?_setPrefix ran x
  | setAttributeValue id value =>
    obtain ⟨_, ran, _⟩ := Edit.map_run_eq_ok_iff.1 ran
    exact naming?_setAttributeValue ran x
  | setDocumentUri document uri =>
    obtain ⟨_, ran, _⟩ := Edit.map_run_eq_ok_iff.1 ran
    exact naming?_setDocumentUri ran x

end Command

end XmlTree
