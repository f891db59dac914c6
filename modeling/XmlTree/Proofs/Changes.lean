import XmlTree.Proofs.Lineage
import XmlTree.Proofs.Ownership.Relabel
import XmlTree.Proofs.Ownership.Release
import XmlTree.Session

/-!
# What a command can do

A command changes a consistent arena by a few basic steps: it fills a slot, moves or
removes a child, files a node on a shelf or takes one off, sweeps a tree, or
relabels a node.  `Change` lists these steps with the conditions under which they
are taken.  `Command.steps` says that there are no others and that a failing
command takes none.

An arena is *sound* when it is consistent and founded.  Every step keeps it so
(`Change.sound`), hence every command does (`Sound.command`).
-/

namespace XmlTree

open Relation (ReflTransGen)

namespace Arena

variable {a a' : Arena}

/-- One step that a command takes on a consistent arena. -/
inductive Change (a : Arena) : Arena → Prop
  /-- A new slot is filled with a node that owns nothing. -/
  | create (kind : NodeKind) (bare : kind.owned = []) : Change a (a.push kind)
  /-- A child comes under a parent, from wherever it was. -/
  | move (parent child : NodeId) (place : List NodeId → List NodeId)
      (checked : a.checkInsertable parent child = .ok ())
      (adds : (place ((a.childrenAt parent).erase child)).Perm
        (child :: (a.childrenAt parent).erase child)) :
      Change a ((a.unlink child).link parent child place)
  /-- A child leaves its parent. -/
  | remove (child : NodeId) (placed : a.place? child = some .child) : Change a (a.unlink child)
  /-- An element files a node under the key that the node asks for. -/
  | claim {κ : Type} [DecidableEq κ] {shelf : Shelf κ} {file : κ → Place}
      (laws : shelf.Lawful file) (element id : NodeId) (key : κ) {data : ElementData}
      (found : a.element? element = some data) (placed : a.place? id = some (file key))
      (apart : id ≠ xmlDeclaration) : Change a (a.claimed shelf element id key)
  /-- An element gives up the node under a key. -/
  | discharge {κ : Type} [DecidableEq κ] {shelf : Shelf κ} {file : κ → Place}
      (laws : shelf.Lawful file) (element : NodeId) (key : κ) {data : ElementData}
      (found : a.element? element = some data) : Change a (a.discharged shelf element key)
  /-- A node without an owner is released with everything below it. -/
  | sweep (id : NodeId) (apart : id ≠ xmlDeclaration) (unowned : a.owner? id = none) :
      Change a (a.sweep [id])
  /-- A node says something else in the same place. -/
  | relabel (id : NodeId) (f : Node → Node) (apart : id ≠ xmlDeclaration)
      (same : ∀ node, a.find? id = some node → node.Relabels (f node)) : Change a (a.update id f)

/-! ## Every step keeps an arena sound -/

/-- The table is in order and no chain of owners goes on for ever. -/
structure Sound (a : Arena) : Prop extends a.Consistent where
  /-- Chains of owners come to an end. -/
  founded : a.Founded

theorem Change.consistent (change : a.Change a') (h : a.Consistent) : a'.Consistent := by
  cases change with
  | create kind bare => exact h.push kind bare
  | move parent child place checked adds =>
    obtain ⟨container, placed, _⟩ := checkInsertable_eq_ok_iff.1 checked
    have relinks := relinks_unlink h child
    have placed' := (relinks.place child).trans placed
    refine (h.unlink placed).link (relinks.isContainer container) placed' ?_ ?_
    · rw [owner?_unlink, if_pos rfl]
    · rw [childrenAt_unlink h child]
      exact adds
  | remove child placed => exact h.unlink placed
  | claim laws element id key found placed apart => exact h.claimed laws found placed apart
  | discharge laws element key found => exact h.discharged laws found key
  | sweep id apart unowned => exact h.sweep apart unowned
  | relabel id f apart same => exact h.relabel same apart

/-- A node that is filed on a shelf owns nothing. -/
theorem Consistent.not_owns_of_file (h : a.Consistent) {κ : Type} [DecidableEq κ] {shelf : Shelf κ}
    {file : κ → Place} (laws : shelf.Lawful file) {key : κ} {id x : NodeId}
    (placed : a.place? id = some (file key)) : ¬ a.Owns id x := by
  intro owned
  obtain ⟨node, found, place⟩ := exists_find?_of_place? placed
  obtain ⟨place', listed⟩ := (h.settled x).owned owned
  have owns := (exists_lists_iff found).1 ⟨place', listed⟩
  obtain ⟨_, _, kind⟩ := node
  cases kind with
  | document data => cases place
  | element data => exact laws.ne_child key (Option.some.inj place).symm
  | _ => cases owns

/-- A node that is filed on a shelf is no element and has none below it. -/
theorem Consistent.not_above_element (h : a.Consistent) {κ : Type} [DecidableEq κ] {shelf : Shelf κ}
    {file : κ → Place} (laws : shelf.Lawful file) {key : κ} {id element : NodeId}
    {data : ElementData} (placed : a.place? id = some (file key))
    (found : a.element? element = some data) : ¬ ReflTransGen a.Owns id element := by
  intro path
  rcases path.cases_head with same | ⟨x, owned, _⟩
  · subst same
    obtain ⟨node, live, place⟩ := exists_find?_of_place? placed
    rw [element?_of_find? live] at found
    obtain ⟨_, _, kind⟩ := node
    cases kind with
    | element data => exact laws.ne_child key (Option.some.inj place).symm
    | _ => cases found
  · exact h.not_owns_of_file laws placed owned

/-- A parent that passed the check is not below the child it is given. -/
theorem Founded.not_above_parent (founded : a.Founded) {parent child : NodeId}
    (checked : a.checkInsertable parent child = .ok ()) : ¬ ReflTransGen a.Owns child parent := by
  obtain ⟨_, _, above, _⟩ := checkInsertable_eq_ok_iff.1 checked
  rw [← mem_ids_lineage_iff founded, ← Lineage.contains_iff, above]
  exact Bool.false_ne_true

theorem Change.founded (change : a.Change a') (h : a.Consistent) (founded : a.Founded) :
    a'.Founded := by
  cases change with
  | create kind bare =>
    refine founded.mono fun x owner owned => ?_
    rwa [owner?_push] at owned
  | move parent child place checked adds =>
    obtain ⟨_, placed, _⟩ := checkInsertable_eq_ok_iff.1 checked
    have relinks := relinks_unlink h child
    have live : (a.unlink child).contains child = true := by
      rw [relinks.contains]
      exact contains_of_place? placed
    refine founded.of_link (founded.not_above_parent checked) fun x owner owned => ?_
    rw [owner?_link live, owner?_unlink] at owned
    split at owned
    next same => exact Or.inr ⟨same.symm, (Option.some.inj owned).symm⟩
    next other => exact Or.inl owned
  | remove child placed =>
    refine founded.mono fun x owner owned => ?_
    rw [owner?_unlink] at owned
    split at owned
    next same => cases owned
    next other => exact owned
  | claim laws element id key found placed apart =>
    refine founded.of_link (h.not_above_element laws placed found) fun x owner owned => ?_
    rw [owner?_claimed h laws placed] at owned
    split at owned
    next same => exact Or.inr ⟨same.symm, (Option.some.inj owned).symm⟩
    next other =>
      split at owned
      next stands => cases owned
      next stays => exact Or.inl owned
  | discharge laws element key found =>
    refine founded.mono fun x owner owned => ?_
    rw [owner?_discharged h laws] at owned
    split at owned
    next stands => cases owned
    next stays => exact owned
  | sweep id apart unowned => exact founded.mono fun x owner owned => owner?_sweep owned
  | relabel id f apart same =>
    refine founded.mono fun x owner owned => ?_
    rwa [owner?_relabel same] at owned

theorem Change.sound (change : a.Change a') (h : a.Sound) : a'.Sound where
  toConsistent := change.consistent h.toConsistent
  founded := change.founded h.toConsistent h.founded

theorem Sound.changes (h : a.Sound) (changes : ReflTransGen Change a a') : a'.Sound := by
  induction changes with
  | refl => exact h
  | tail _ change ih => exact change.sound ih

/-- What every step on a sound arena keeps is kept by any number of steps. -/
theorem Sound.invariant {P : Arena → Prop}
    (step : ∀ {a a' : Arena}, a.Sound → a.Change a' → P a → P a') (h : a.Sound)
    (changes : ReflTransGen Change a a') (holds : P a) : P a' := by
  induction changes with
  | refl => exact holds
  | tail before change ih => exact step (h.changes before) change ih

/-- No step changes the limits. -/
theorem Change.config_eq (change : a.Change a') (h : a.Consistent) : a'.config = a.config := by
  cases change with
  | create kind bare => rfl
  | move parent child place checked adds =>
    obtain ⟨_, placed, _⟩ := checkInsertable_eq_ok_iff.1 checked
    exact (relinks_unlink h child).config
  | remove child placed => exact (relinks_unlink h child).config
  | claim laws element id key found placed apart =>
    exact (relinks_claimed h laws found placed apart).config
  | discharge laws element key found => exact (relinks_discharged h laws found key).config
  | sweep id apart unowned => exact config_sweep a [id]
  | relabel id f apart same => rfl

end Arena

/-! ## Every command takes such steps -/

namespace Edit

open Arena

variable {α β : Type} {a a' : Arena}

/-- An edit takes basic steps if it succeeds and changes nothing if it fails. -/
def Steps (edit : Edit α) (a : Arena) : Prop :=
  match edit a with
  | .ok _ a' => ReflTransGen Change a a'
  | .error _ a' => a' = a

theorem Steps.of_ok {edit : Edit α} {answer : α} (ok : edit a = .ok answer a')
    (changes : ReflTransGen Change a a') : edit.Steps a := by
  rw [Steps, ok]
  exact changes

theorem Steps.of_error {edit : Edit α} {e : TreeError} (error : edit a = .error e a) :
    edit.Steps a := by
  rw [Steps, error]

theorem Steps.map {edit : Edit α} (steps : edit.Steps a) (f : α → β) : (f <$> edit).Steps a := by
  rw [Steps] at steps ⊢
  rw [map_run]
  cases ran : edit a with
  | ok answer a' =>
    rw [ran] at steps
    exact steps
  | error e a' =>
    rw [ran] at steps
    exact steps

theorem Steps.changes {edit : Edit α} (steps : edit.Steps a) :
    ReflTransGen Change a (edit.outcome a).2 := by
  rw [Steps] at steps
  rw [outcome]
  cases ran : edit a with
  | ok answer a' =>
    rw [ran] at steps
    exact steps
  | error e a' =>
    rw [ran] at steps
    rw [steps]

theorem steps_allocate {kind : NodeKind} (bare : kind.owned = []) : (allocate kind).Steps a := by
  by_cases room : a.slots.size < slotLimit
  · exact .of_ok (if_pos room) (.single (.create kind bare))
  · exact .of_error (if_neg room)

theorem steps_createElement (namespaceUri : Option String) (qualifiedName : String) :
    (createElement namespaceUri qualifiedName).Steps a := by
  rw [createElement]
  split
  next unbound => exact .of_error rfl
  next bound => exact steps_allocate rfl

theorem steps_appendChild (h : a.Consistent) (parent child : NodeId) :
    (appendChild parent child).Steps a := by
  have runs := appendChild_eq h parent child
  cases checked : a.checkInsertable parent child with
  | error e =>
    rw [checked] at runs
    exact .of_error runs
  | ok _ =>
    rw [checked] at runs
    exact .of_ok runs (.single (.move parent child _ checked (List.perm_append_singleton child _)))

theorem steps_insertBefore (h : a.Consistent) (parent child reference : NodeId) :
    (insertBefore parent child reference).Steps a := by
  have runs := insertBefore_eq h parent child reference
  cases found : a.find? reference with
  | none =>
    rw [found] at runs
    exact .of_error runs
  | some node =>
    simp only [found] at runs
    split at runs
    next stranger => exact .of_error runs
    next known =>
      split at runs
      next same => exact .of_ok runs .refl
      next other =>
        cases checked : a.checkInsertable parent child with
        | error e =>
          rw [checked] at runs
          exact .of_error runs
        | ok _ =>
          rw [checked] at runs
          rw [not_or, Bool.not_eq_true, not_not] at known
          have listed : reference ∈ a.childrenAt parent :=
            h.mem_childrenAt_iff.2 ⟨(owner?_of_find? found).trans known.2,
              listed_of_parent h found known.1 known.2⟩
          have adds := List.perm_insertIdx child _ (length_takeWhile_erase_le listed child)
          exact .of_ok runs (.single (.move parent child _ checked adds))

theorem steps_removeChild (h : a.Consistent) (parent child : NodeId) :
    (removeChild parent child).Steps a := by
  have runs := removeChild_eq h parent child
  cases found : a.find? child with
  | none =>
    rw [found] at runs
    exact .of_error runs
  | some node =>
    simp only [found] at runs
    split at runs
    next mapped => exact .of_error runs
    next unmapped =>
      split at runs
      next owned =>
        have placed := listed_of_parent h found (Bool.eq_false_iff.2 unmapped) owned
        exact .of_ok runs (.single (.remove child placed))
      next other => exact .of_error runs

theorem steps_release (id : NodeId) : (release id).Steps a := by
  have runs := release_eq a id
  split at runs
  next builtIn => exact .of_error runs
  next other =>
    cases found : a.find? id with
    | none =>
      rw [found] at runs
      exact .of_error runs
    | some node =>
      simp only [found] at runs
      cases owned : node.parent with
      | some owner =>
        rw [owned] at runs
        exact .of_error runs
      | none =>
        rw [owned] at runs
        exact .of_ok runs (.single (.sweep id other ((owner?_of_find? found).trans owned)))

theorem steps_setAttribute (h : a.Consistent) (element id : NodeId) :
    (setAttribute element id).Steps a := by
  have runs := setAttribute_eq h element id
  cases holds : a.element element with
  | error e =>
    rw [holds] at runs
    exact .of_error runs
  | ok data =>
    cases entry : a.attributeData id with
    | error e =>
      rw [holds, entry] at runs
      exact .of_error runs
    | ok entry' =>
      rw [holds, entry] at runs
      exact .of_ok runs (.single (.claim Shelf.attributes_lawful element id _
        (element_eq_ok_iff.1 holds) (place?_of_attributeData entry)
        (h.ne_xmlDeclaration_of_attributeData entry)))

theorem steps_setNamespace (h : a.Consistent) (element id : NodeId) :
    (setNamespace element id).Steps a := by
  have runs := setNamespace_eq h element id
  split at runs
  next builtIn => exact .of_error runs
  next other =>
    cases holds : a.element element with
    | error e =>
      rw [holds] at runs
      exact .of_error runs
    | ok data =>
      cases entry : a.namespaceData id with
      | error e =>
        rw [holds, entry] at runs
        exact .of_error runs
      | ok entry' =>
        rw [holds, entry] at runs
        exact .of_ok runs (.single (.claim Shelf.declarations_lawful element id _
          (element_eq_ok_iff.1 holds) (place?_of_namespaceData entry) other))

theorem steps_discharge (h : a.Consistent) {κ : Type} [DecidableEq κ] {shelf : Shelf κ}
    {file : κ → Place} (laws : shelf.Lawful file) (element : NodeId) (key : κ) :
    (discharge shelf element key).Steps a := by
  have runs := discharge_eq h laws element key
  cases holds : a.element element with
  | error e =>
    rw [holds] at runs
    exact .of_error runs
  | ok data =>
    rw [holds] at runs
    exact .of_ok runs (.single (.discharge laws element key (element_eq_ok_iff.1 holds)))

/-- A new node is created and then filed. -/
theorem changes_push_claimed (h : a.Consistent) {κ : Type} [DecidableEq κ] {shelf : Shelf κ}
    {file : κ → Place} (laws : shelf.Lawful file) {element : NodeId} {key : κ} {data : ElementData}
    {kind : NodeKind} (holds : a.element element = .ok data) (bare : kind.owned = [])
    (placed : kind.place? = some (file key)) :
    ReflTransGen Change a ((a.push kind).claimed shelf element a.nextId key) := by
  have found := (find?_push a kind a.nextId).trans (if_pos rfl)
  exact .tail (.single (.create kind bare)) (.claim laws element a.nextId key
    (element_eq_ok_iff.1 (element_push holds kind)) ((place?_of_find? found).trans placed)
    (nextId_ne_of_find? h.builtIn))

theorem Steps.of_added (h : a.Consistent) {κ : Type} [DecidableEq κ] {shelf : Shelf κ}
    {file : κ → Place} (laws : shelf.Lawful file) {element : NodeId} {key : κ} {kind : NodeKind}
    {edit : Edit NodeId} (runs : edit a = a.added shelf element key kind) (bare : kind.owned = [])
    (placed : kind.place? = some (file key)) : edit.Steps a := by
  cases holds : a.element element with
  | error e => exact .of_error (runs.trans (added_of_error holds))
  | ok data =>
    rw [added_of_element holds] at runs
    split at runs
    next room => exact .of_ok runs (changes_push_claimed h laws holds bare placed)
    next full => exact .of_error runs

theorem steps_setPrefix (h : a.Consistent) (element : NodeId) (nsPrefix : Option String) :
    (setPrefix element nsPrefix).Steps a := by
  have runs := setPrefix_eq a element nsPrefix
  cases holds : a.element element with
  | error e =>
    rw [holds] at runs
    exact .of_error runs
  | ok data =>
    simp only [holds] at runs
    split at runs
    next unbound => exact .of_error runs
    next bound =>
      have apart := h.ne_xmlDeclaration_of_element? (element_eq_ok_iff.1 holds)
      exact .of_ok runs (.single (.relabel element _ apart fun node _ =>
        node.relabels_qualifiedName _))

theorem steps_setAttributeValue (h : a.Consistent) (id : NodeId) (value : String) :
    (setAttributeValue id value).Steps a := by
  have runs := setAttributeValue_eq a id value
  cases holds : a.attributeData id with
  | error e =>
    rw [holds] at runs
    exact .of_error runs
  | ok data =>
    rw [holds] at runs
    obtain ⟨node, found, kind⟩ := attributeData_eq_ok_iff.1 holds
    refine .of_ok runs (.single (.relabel id _ (h.ne_xmlDeclaration_of_attributeData holds) ?_))
    intro node' found'
    obtain rfl := Option.some.inj (found.symm.trans found')
    exact Node.relabels_attr kind value

theorem steps_setDocumentUri (h : a.Consistent) (document : NodeId) (uri : Option String) :
    (setDocumentUri document uri).Steps a := by
  have runs := setDocumentUri_eq a document uri
  cases holds : a.document document with
  | error e =>
    rw [holds] at runs
    exact .of_error runs
  | ok data =>
    rw [holds] at runs
    obtain ⟨node, found, kind⟩ := document_eq_ok_iff.1 holds
    have apart : document ≠ xmlDeclaration := by
      intro same
      subst same
      obtain rfl := Option.some.inj (found.symm.trans h.builtIn)
      cases kind
    refine .of_ok runs (.single (.relabel document _ apart ?_))
    intro node' found'
    obtain rfl := Option.some.inj (found.symm.trans found')
    exact Node.relabels_document kind uri

end Edit

/-- A command takes basic steps if it succeeds and changes nothing if it fails. -/
theorem Command.steps {a : Arena} (h : a.Consistent) (documentNumber : Nat) (command : Command) :
    (command.edit documentNumber).Steps a := by
  cases command with
  | createDocument uri => exact (Edit.steps_allocate rfl).map _
  | createElement namespaceUri qualifiedName =>
    exact (Edit.steps_createElement namespaceUri qualifiedName).map _
  | createAttribute namespaceUri qualifiedName localName value =>
    exact (Edit.steps_allocate rfl).map _
  | createNamespace nsPrefix uri => exact (Edit.steps_allocate rfl).map _
  | createText value => exact (Edit.steps_allocate rfl).map _
  | createComment value => exact (Edit.steps_allocate rfl).map _
  | appendChild parent child => exact (Edit.steps_appendChild h parent child).map _
  | insertBefore parent child reference =>
    exact (Edit.steps_insertBefore h parent child reference).map _
  | removeChild parent child => exact (Edit.steps_removeChild h parent child).map _
  | release id => exact (Edit.steps_release id).map _
  | setPrefix element nsPrefix => exact (Edit.steps_setPrefix h element nsPrefix).map _
  | setDocumentUri document uri => exact (Edit.steps_setDocumentUri h document uri).map _
  | addAttribute element namespaceUri qualifiedName localName value =>
    have runs := Arena.addAttribute_eq h element namespaceUri qualifiedName localName value
    exact (Edit.Steps.of_added h Shelf.attributes_lawful runs rfl rfl).map _
  | setAttribute element id => exact (Edit.steps_setAttribute h element id).map _
  | removeAttribute element name =>
    exact (Edit.steps_discharge h Shelf.attributes_lawful element name).map _
  | setAttributeValue id value => exact (Edit.steps_setAttributeValue h id value).map _
  | addNamespace element nsPrefix uri =>
    have runs := Arena.addNamespace_eq h element nsPrefix uri
    exact (Edit.Steps.of_added h Shelf.declarations_lawful runs rfl rfl).map _
  | setNamespace element id => exact (Edit.steps_setNamespace h element id).map _
  | removeNamespace element nsPrefix =>
    exact (Edit.steps_discharge h Shelf.declarations_lawful element nsPrefix).map _

/-- A command leaves a sound arena sound, whether it succeeds or fails. -/
theorem Arena.Sound.command {a : Arena} (h : a.Sound) (documentNumber : Nat) (command : Command) :
    ((command.edit documentNumber).outcome a).2.Sound :=
  h.changes (command.steps h.toConsistent documentNumber).changes

end XmlTree
