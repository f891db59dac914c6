import XmlTree.Proofs.Failure.Questions
import XmlTree.Proofs.Reachable

/-!
# What a failure leaves and what it can be

A command that fails leaves a reachable arena exactly as it was
(`Reachable.unchanged_of_error`): whatever can fail is asked before the first change.
And whatever fails in a reachable arena, command or question, fails for the caller's
reasons (`Reachable.failureLaws`).
-/

namespace XmlTree

/-! ## Atomicity -/

/-- A command that fails changes nothing. -/
theorem Command.eq_of_error {a : Arena} (h : a.Consistent) (documentNumber : Nat)
    (command : Command) {e : TreeError}
    (failed : ((command.edit documentNumber).outcome a).1 = .error e) :
    ((command.edit documentNumber).outcome a).2 = a := by
  have steps := command.steps h documentNumber
  rw [Edit.Steps] at steps
  rw [Edit.outcome] at failed ⊢
  cases ran : command.edit documentNumber a with
  | ok reply a' =>
    rw [ran] at failed
    cases failed
  | error e' a' =>
    rw [ran] at steps
    exact steps

namespace Arena

/-- In a reachable arena a command that fails leaves every slot, the count and the settings
as they were. -/
theorem Reachable.unchanged_of_error {config : Config} {a : Arena}
    (reachable : Reachable config a) (documentNumber : Nat) (command : Command) {e : TreeError}
    (failed : ((command.edit documentNumber).outcome a).1 = .error e) :
    ((command.edit documentNumber).outcome a).2 = a :=
  command.eq_of_error reachable.sound.toConsistent documentNumber failed

/-- An insertion is refused when its reference stands under another parent. -/
theorem unchanged_of_strange_reference :
    let session := (Session.start {}).runAll [.createElement none "a", .createElement none "b",
      .createText "t", .appendChild ⟨1⟩ ⟨3⟩, .createText "u", .appendChild ⟨2⟩ ⟨4⟩]
    let outcome := ((Command.insertBefore ⟨1⟩ ⟨3⟩ ⟨4⟩).edit 1).outcome session.arena
    outcome.1 = .error (.hierarchy (.referenceNotChild ⟨4⟩ ⟨1⟩)) ∧ outcome.2 = session.arena :=
  have failed := by decide +kernel
  ⟨failed, Reachable.unchanged_of_error (Reachable.runAll (s := .start {}) .empty _) 1 _ failed⟩

end Arena

/-! ## Checks -/

namespace Arena

variable {a : Arena} {ids : List NodeId} {parent child x : NodeId} {e : TreeError} {β : Type}

theorem Sound.failsFairly_checkInsertable (h : a.Sound) (namedParent : parent ∈ ids)
    (namedChild : child ∈ ids) : a.FailsFairly ids (a.checkInsertable parent child) := by
  have nodeType : ∀ {x}, x ∈ ids → a.FailsFairly ids (a.nodeType x) := fun named =>
    (failsFairly_get named).bind fun _ _ => .pure _
  refine (nodeType namedParent).bind fun parentType _ => ?_
  refine .ite ?_ (.throw_bind (TreeError.fair_iff.2 trivial))
  refine (nodeType namedChild).bind fun childType typed => ?_
  refine .ite ?_ (.throw_bind (TreeError.fair_iff.2 trivial))
  refine .ite (.throw_bind (TreeError.fair_iff.2 trivial)) ?_
  refine (h.failsFairly_summit namedParent).bind fun summit _ => ?_
  obtain ⟨node, found, _⟩ := bind_eq_ok_iff.1 typed
  have live : a.contains child = true := contains_iff.2 ⟨node, get_eq_ok_iff.1 found⟩
  refine (h.toConsistent.failsFairly_heightWithin _ live).bind fun height _ => ?_
  exact .ite (.throw (TreeError.fair_iff.2 trivial)) (.pure _)

end Arena

/-! ## Edits -/

namespace Edit

open Arena

variable {α β : Type} {a a' : Arena} {ids : List NodeId} {edit : Edit α}

/-- An edit fails for fair reasons only. -/
def FailsFairly (edit : Edit α) (a : Arena) (ids : List NodeId) : Prop :=
  a.FailsFairly ids (edit.outcome a).1

theorem FailsFairly.of_ok {answer : α} (ok : edit a = .ok answer a') : edit.FailsFairly a ids :=
  Arena.FailsFairly.of_ok (v := answer) (by rw [outcome, ok])

theorem FailsFairly.of_error {e : TreeError} (failed : edit a = .error e a')
    (fair : e.Fair a ids) : edit.FailsFairly a ids := by
  rw [FailsFairly, outcome, failed]
  exact .throw fair

theorem FailsFairly.map (h : edit.FailsFairly a ids) (f : α → β) :
    (f <$> edit).FailsFairly a ids := by
  cases ran : edit a with
  | ok answer a' => exact .of_ok (by rw [map_run, ran])
  | error e a' =>
    have fair := h e (by rw [outcome, ran])
    exact .of_error (by rw [map_run, ran]) fair

/-- An edit that a question decides fails as the question does. -/
theorem FailsFairly.of_question {γ : Type} {question : Except TreeError γ}
    (asked : a.FailsFairly ids question)
    (ok : ∀ v, question = .ok v → edit.FailsFairly a ids)
    (error : ∀ e, question = .error e → edit a = .error e a) : edit.FailsFairly a ids := by
  cases answered : question with
  | ok v => exact ok v answered
  | error e => exact .of_error (error e answered) (asked e answered)

theorem failsFairly_allocate (kind : NodeKind) : (allocate kind).FailsFairly a ids := by
  by_cases room : a.slots.size < slotLimit
  · exact .of_ok (if_pos room)
  · exact .of_error (if_neg room) (TreeError.fair_iff.2 trivial)

theorem failsFairly_createElement (namespaceUri : Option String) (qualifiedName : String) :
    (createElement namespaceUri qualifiedName).FailsFairly a ids := by
  rw [createElement]
  split
  next unbound =>
    exact .of_error rfl (TreeError.fair_iff.2 trivial)
  next bound => exact failsFairly_allocate _

theorem failsFairly_appendChild (h : a.Sound) {parent child : NodeId} (namedParent : parent ∈ ids)
    (namedChild : child ∈ ids) : (appendChild parent child).FailsFairly a ids := by
  have runs := appendChild_eq h.toConsistent parent child
  refine .of_question (h.failsFairly_checkInsertable namedParent namedChild) ?_ ?_
  · intro _ checked
    rw [checked] at runs
    exact .of_ok runs
  · intro e refused
    rw [refused] at runs
    exact runs

theorem failsFairly_insertBefore (h : a.Sound) {parent child reference : NodeId}
    (namedParent : parent ∈ ids) (namedChild : child ∈ ids) (namedReference : reference ∈ ids) :
    (insertBefore parent child reference).FailsFairly a ids := by
  have runs := insertBefore_eq h.toConsistent parent child reference
  cases found : a.find? reference with
  | none =>
    rw [found] at runs
    exact .of_error runs (TreeError.fair_notFound namedReference found)
  | some node =>
    simp only [found] at runs
    split at runs
    next stranger => exact .of_error runs (TreeError.fair_iff.2 trivial)
    next known =>
      split at runs
      next same => exact .of_ok runs
      next other =>
        refine .of_question (h.failsFairly_checkInsertable namedParent namedChild) ?_ ?_
        · intro _ checked
          rw [checked] at runs
          exact .of_ok runs
        · intro e refused
          rw [refused] at runs
          exact runs

theorem failsFairly_removeChild (h : a.Consistent) (parent : NodeId) {child : NodeId}
    (named : child ∈ ids) : (removeChild parent child).FailsFairly a ids := by
  have runs := removeChild_eq h parent child
  cases found : a.find? child with
  | none =>
    rw [found] at runs
    exact .of_error runs (TreeError.fair_notFound named found)
  | some node =>
    simp only [found] at runs
    split at runs
    next mapped => exact .of_error runs (TreeError.fair_iff.2 trivial)
    next unmapped =>
      split at runs
      next owned => exact .of_ok runs
      next other => exact .of_error runs (TreeError.fair_iff.2 trivial)

theorem failsFairly_release {id : NodeId} (named : id ∈ ids) : (release id).FailsFairly a ids := by
  have runs := release_eq a id
  split at runs
  next builtIn => exact .of_error runs (TreeError.fair_iff.2 trivial)
  next other =>
    cases found : a.find? id with
    | none =>
      rw [found] at runs
      exact .of_error runs (TreeError.fair_notFound named found)
    | some node =>
      simp only [found] at runs
      cases owned : node.parent with
      | none =>
        rw [owned] at runs
        exact .of_ok runs
      | some owner =>
        rw [owned] at runs
        exact .of_error runs (TreeError.fair_iff.2 trivial)

theorem failsFairly_setAttribute (h : a.Consistent) {element id : NodeId}
    (namedElement : element ∈ ids) (named : id ∈ ids) :
    (setAttribute element id).FailsFairly a ids := by
  have runs := setAttribute_eq h element id
  refine .of_question (failsFairly_element namedElement) ?_ ?_
  · intro data holds
    refine .of_question (failsFairly_attributeData named) ?_ ?_
    · intro entry filed
      rw [holds, filed] at runs
      exact .of_ok runs
    · intro e refused
      rw [holds, refused] at runs
      exact runs
  · intro e refused
    rw [refused] at runs
    exact runs

theorem failsFairly_setNamespace (h : a.Consistent) {element id : NodeId}
    (namedElement : element ∈ ids) (named : id ∈ ids) :
    (setNamespace element id).FailsFairly a ids := by
  have runs := setNamespace_eq h element id
  split at runs
  next builtIn => exact .of_error runs (TreeError.fair_iff.2 trivial)
  next other =>
    refine .of_question (failsFairly_element namedElement) ?_ ?_
    · intro data holds
      refine .of_question (failsFairly_namespaceData named) ?_ ?_
      · intro entry filed
        rw [holds, filed] at runs
        exact .of_ok runs
      · intro e refused
        rw [holds, refused] at runs
        exact runs
    · intro e refused
      rw [refused] at runs
      exact runs

theorem failsFairly_discharge (h : a.Consistent) {κ : Type} [DecidableEq κ] {shelf : Shelf κ}
    {file : κ → Place} (laws : shelf.Lawful file) {element : NodeId} (named : element ∈ ids)
    (key : κ) : (discharge shelf element key).FailsFairly a ids := by
  have runs := discharge_eq h laws element key
  refine .of_question (failsFairly_element named) ?_ ?_
  · intro data holds
    rw [holds] at runs
    exact .of_ok runs
  · intro e refused
    rw [refused] at runs
    exact runs

theorem FailsFairly.of_added {κ : Type} [DecidableEq κ] {shelf : Shelf κ} {element : NodeId}
    {key : κ} {kind : NodeKind} {edit : Edit NodeId}
    (runs : edit a = a.added shelf element key kind) (named : element ∈ ids) :
    edit.FailsFairly a ids := by
  refine .of_question (failsFairly_element named) (fun data holds => ?_) fun e refused => ?_
  · rw [added_of_element holds] at runs
    split at runs
    next room => exact .of_ok runs
    next full => exact .of_error runs (TreeError.fair_iff.2 trivial)
  · exact runs.trans (added_of_error refused)

theorem failsFairly_setPrefix {element : NodeId} (named : element ∈ ids)
    (nsPrefix : Option String) : (setPrefix element nsPrefix).FailsFairly a ids := by
  have runs := setPrefix_eq a element nsPrefix
  refine .of_question (failsFairly_element named) ?_ ?_
  · intro data holds
    simp only [holds] at runs
    split at runs
    next unbound => exact .of_error runs (TreeError.fair_iff.2 trivial)
    next bound => exact .of_ok runs
  · intro e refused
    rw [refused] at runs
    exact runs

theorem failsFairly_setAttributeValue {id : NodeId} (named : id ∈ ids) (value : String) :
    (setAttributeValue id value).FailsFairly a ids := by
  have runs := setAttributeValue_eq a id value
  refine .of_question (failsFairly_attributeData named) ?_ ?_
  · intro data holds
    rw [holds] at runs
    exact .of_ok runs
  · intro e refused
    rw [refused] at runs
    exact runs

theorem failsFairly_setDocumentUri {document : NodeId} (named : document ∈ ids)
    (uri : Option String) : (setDocumentUri document uri).FailsFairly a ids := by
  have runs := setDocumentUri_eq a document uri
  refine .of_question (failsFairly_document named) ?_ ?_
  · intro data holds
    rw [holds] at runs
    exact .of_ok runs
  · intro e refused
    rw [refused] at runs
    exact runs

end Edit

/-! ## Commands -/

/-- The identities that a command names. -/
def Command.ids : Command → List NodeId
  | createDocument _ | createElement _ _ | createAttribute _ _ _ _ | createNamespace _ _
  | createText _ | createComment _ => []
  | appendChild parent child | removeChild parent child => [parent, child]
  | insertBefore parent child reference => [parent, child, reference]
  | release id | setAttributeValue id _ => [id]
  | setDocumentUri document _ => [document]
  | setPrefix element _ | addAttribute element _ _ _ _ | removeAttribute element _
  | addNamespace element _ _ | removeNamespace element _ => [element]
  | setAttribute element id | setNamespace element id => [element, id]

/-- A command on a sound arena fails for what it names. -/
theorem Command.failsFairly {a : Arena} (h : a.Sound) (documentNumber : Nat) (command : Command) :
    (command.edit documentNumber).FailsFairly a command.ids := by
  have consistent := h.toConsistent
  cases command with
  | createDocument uri => exact (Edit.failsFairly_allocate _).map _
  | createElement namespaceUri qualifiedName =>
    exact (Edit.failsFairly_createElement namespaceUri qualifiedName).map _
  | createAttribute namespaceUri qualifiedName localName value =>
    exact (Edit.failsFairly_allocate _).map _
  | createNamespace nsPrefix uri => exact (Edit.failsFairly_allocate _).map _
  | createText value => exact (Edit.failsFairly_allocate _).map _
  | createComment value => exact (Edit.failsFairly_allocate _).map _
  | appendChild parent child =>
    exact (Edit.failsFairly_appendChild h (by simp [ids]) (by simp [ids])).map _
  | insertBefore parent child reference =>
    exact (Edit.failsFairly_insertBefore h (by simp [ids]) (by simp [ids]) (by simp [ids])).map _
  | removeChild parent child =>
    exact (Edit.failsFairly_removeChild consistent parent (by simp [ids])).map _
  | release id => exact (Edit.failsFairly_release (by simp [ids])).map _
  | setPrefix element nsPrefix => exact (Edit.failsFairly_setPrefix (by simp [ids]) nsPrefix).map _
  | setDocumentUri document uri => exact (Edit.failsFairly_setDocumentUri (by simp [ids]) uri).map _
  | addAttribute element namespaceUri qualifiedName localName value =>
    have runs := Arena.addAttribute_eq consistent element namespaceUri qualifiedName localName value
    exact (Edit.FailsFairly.of_added runs (by simp [ids])).map _
  | setAttribute element id =>
    exact (Edit.failsFairly_setAttribute consistent (by simp [ids]) (by simp [ids])).map _
  | removeAttribute element name =>
    exact (Edit.failsFairly_discharge consistent Shelf.attributes_lawful (by simp [ids]) name).map _
  | setAttributeValue id value =>
    exact (Edit.failsFairly_setAttributeValue (by simp [ids]) value).map _
  | addNamespace element nsPrefix uri =>
    have runs := Arena.addNamespace_eq consistent element nsPrefix uri
    exact (Edit.FailsFairly.of_added runs (by simp [ids])).map _
  | setNamespace element id =>
    exact (Edit.failsFairly_setNamespace consistent (by simp [ids]) (by simp [ids])).map _
  | removeNamespace element nsPrefix =>
    exact (Edit.failsFairly_discharge consistent Shelf.declarations_lawful (by simp [ids])
      nsPrefix).map _

/-! ## The laws of failure -/

namespace Arena

/-- Whatever fails, fails for what the caller named. -/
structure FailureLaws (a : Arena) : Prop where
  /-- Commands, whatever number the next document has. -/
  commands : ∀ (documentNumber : Nat) (command : Command),
    (command.edit documentNumber).FailsFairly a command.ids
  /-- The look-up of a node. -/
  get : ∀ x, a.FailsFairly [x] (a.get x)
  /-- The type of a node. -/
  nodeType : ∀ x, a.FailsFairly [x] (a.nodeType x)
  /-- The owner of a node. -/
  parent : ∀ x, a.FailsFairly [x] (a.parent x)
  /-- The children of a node. -/
  children : ∀ x, a.FailsFairly [x] (a.children x)
  /-- The data of an element. -/
  element : ∀ x, a.FailsFairly [x] (a.element x)
  /-- The data of an attribute. -/
  attributeData : ∀ x, a.FailsFairly [x] (a.attributeData x)
  /-- The data of a declaration. -/
  namespaceData : ∀ x, a.FailsFairly [x] (a.namespaceData x)
  /-- The data of a document. -/
  document : ∀ x, a.FailsFairly [x] (a.document x)
  /-- The attributes of an element. -/
  attributes : ∀ x, a.FailsFairly [x] (a.attributes x)
  /-- The declarations of an element. -/
  declarations : ∀ x, a.FailsFairly [x] (a.declarations x)
  /-- The expanded name of an element. -/
  expandedName : ∀ x, a.FailsFairly [x] (a.expandedName x)
  /-- The prefix of an element. -/
  nsPrefix : ∀ x, a.FailsFairly [x] (a.nsPrefix x)
  /-- The line about an element. -/
  describe : ∀ x, a.FailsFairly [x] (a.describe x)
  /-- The attribute under a name. -/
  attribute? : ∀ x name, a.FailsFairly [x] (a.attribute? x name)
  /-- The value of the attribute under a name. -/
  attributeValue? : ∀ x name, a.FailsFairly [x] (a.attributeValue? x name)
  /-- The address of a document. -/
  documentUri : ∀ x, a.FailsFairly [x] (a.documentUri x)
  /-- The number of a document. -/
  documentIndex : ∀ x, a.FailsFairly [x] (a.documentIndex x)
  /-- The first element of a document. -/
  documentElement : ∀ x, a.FailsFairly [x] (a.documentElement x)
  /-- The document of a node. -/
  ownerDocument : ∀ x, a.FailsFairly [x] (a.ownerDocument x)
  /-- The root of a node. -/
  root : ∀ x, a.FailsFairly [x] (a.root x)
  /-- The depth of a node. -/
  depth : ∀ x, a.FailsFairly [x] (a.depth x)
  /-- The sibling before a node. -/
  precedingSibling : ∀ x, a.FailsFairly [x] (a.precedingSibling x)
  /-- The sibling after a node. -/
  followingSibling : ∀ x, a.FailsFairly [x] (a.followingSibling x)
  /-- The base address of a node, however addresses are resolved. -/
  baseUriWith : ∀ r x, a.FailsFairly [x] (a.baseUriWith r x)
  /-- The bindings in scope at an element. -/
  inScope : ∀ x, a.FailsFairly [x] (a.inScope x)
  /-- The namespace that a prefix is bound to. -/
  lookupNamespace : ∀ x nsPrefix, a.FailsFairly [x] (a.lookupNamespace x nsPrefix)
  /-- The order of two nodes. -/
  compareOrder : ∀ x y, a.FailsFairly [x, y] (a.compareOrder x y)
  /-- The order of two nodes, found by climbing. -/
  compareClimbing : ∀ x y, a.FailsFairly [x, y] (a.compareClimbing x y)
  /-- The sorting of a list of nodes. -/
  sortInPlace : ∀ ids e after, a.sortInPlace ids = .error e after → e.Fair a ids
  /-- The nodes from one downwards. -/
  descendants : ∀ x, a.FailsFairly [x] (a.descendants x)
  /-- A traversal, unless its visitor refuses a live node. -/
  traverse : ∀ {σ : Type} (x : NodeId) (visit : Node → EStateM TreeError σ Unit) e state state',
    a.traverse x visit state = .error e state' → e.Fair a [x] ∨
      ∃ y node before, a.find? y = some node ∧ visit node before = .error e state'

/-- In particular the base address by the project's own rules for URLs. -/
theorem FailureLaws.baseUri {a : Arena} (laws : a.FailureLaws) (x : NodeId) :
    a.FailsFairly [x] (a.baseUri x) :=
  laws.baseUriWith .web x

variable {a : Arena} {config : Config}

/-- In a reachable arena nothing fails for an inconsistency, or for a node that the caller
did not name. -/
theorem Reachable.failureLaws (reachable : Reachable config a) : a.FailureLaws where
  commands documentNumber command := command.failsFairly reachable.sound documentNumber
  get x := failsFairly_get (by simp)
  nodeType x := (failsFairly_get (by simp)).bind fun _ _ => .pure _
  parent x := (failsFairly_get (by simp)).bind fun _ _ => .pure _
  children x := (failsFairly_get (by simp)).bind fun _ _ => .pure _
  element x := failsFairly_element (by simp)
  attributeData x := failsFairly_attributeData (by simp)
  namespaceData x := failsFairly_namespaceData (by simp)
  document x := failsFairly_document (by simp)
  attributes x := (failsFairly_element (by simp)).bind fun _ _ => .pure _
  declarations x := (failsFairly_element (by simp)).bind fun _ _ => .pure _
  expandedName x := (failsFairly_element (by simp)).bind fun _ _ => .pure _
  nsPrefix x := (failsFairly_element (by simp)).bind fun _ _ => .pure _
  describe x := (failsFairly_element (by simp)).bind fun _ _ => .pure _
  attribute? x := failsFairly_attribute? (by simp)
  attributeValue? x := reachable.sound.failsFairly_attributeValue? (by simp)
  documentUri x := (failsFairly_document (by simp)).bind fun _ _ => .pure _
  documentIndex x := (failsFairly_document (by simp)).bind fun _ _ => .pure _
  documentElement x := reachable.sound.failsFairly_documentElement (by simp)
  ownerDocument x := reachable.sound.failsFairly_ownerDocument (by simp)
  root x := (reachable.sound.failsFairly_summit (by simp)).bind fun _ _ => .pure _
  depth x := (reachable.sound.failsFairly_summit (by simp)).bind fun _ _ => .pure _
  precedingSibling x := reachable.sound.failsFairly_precedingSibling (by simp)
  followingSibling x := reachable.sound.failsFairly_followingSibling (by simp)
  baseUriWith r x := reachable.sound.failsFairly_baseUriWith r (by simp)
  inScope x := reachable.sound.failsFairly_inScope (by simp)
  lookupNamespace x := reachable.sound.failsFairly_lookupNamespace (by simp)
  compareOrder x y := reachable.sound.failsFairly_compareOrder (by simp) (by simp)
  compareClimbing x y := by
    rw [compareClimbing_eq reachable.sound.founded]
    exact reachable.sound.failsFairly_compareOrder (by simp) (by simp)
  sortInPlace ids e after failed :=
    reachable.sound.failsFairly_sortDocumentOrder e (sortInPlace_eq_error_iff.1 failed).1
  descendants x := reachable.sound.failsFairly_descendants (by simp)
  traverse x visit e state state' failed := reachable.sound.traverse_error failed (by simp)

/-- Failures after a release and a move. -/
theorem failureLaws_of_release : ((Session.start {}).runAll
    [.createDocument none, .createElement none "a", .appendChild ⟨1⟩ ⟨2⟩, .createElement none "b",
      .addAttribute ⟨3⟩ none "k" "k" "v", .addNamespace ⟨2⟩ none "u", .release ⟨3⟩,
      .appendChild ⟨2⟩ ⟨3⟩]).arena.FailureLaws :=
  Reachable.failureLaws (Reachable.runAll (s := .start {}) .empty _)

end Arena

end XmlTree
