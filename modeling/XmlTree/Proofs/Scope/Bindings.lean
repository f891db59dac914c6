import XmlTree.Proofs.Failure.Questions
import XmlTree.Proofs.Views

/-!
# Bindings, declaratively

What is in scope at an element can be said without the collecting of it.  Take the element
and its ancestors from the inside out, as far as they are elements (`elementsAround`), and
put their declarations one after the other.  Of these the first one under each prefix is in
scope, after the declaration of `xml` (`ScopeLaws.inScope`).  A default declaration without
a value is passed over.  So the value of a prefix is what the nearest element binds it to
(`ScopeLaws.lookup`).

Collecting keeps the first declaration under each prefix at every step
(`Consistent.bind_eq`), so it does along any number of them.
-/

namespace XmlTree.Arena

variable {a : Arena} {config : Config} {element id x : NodeId} {nsPrefix : Option String}
variable {found : NamespaceMap} {lineage : Lineage}

/-! ## What is in scope -/

/-- A node and its ancestors from the inside out, as far as they are elements. -/
def elementsAround (a : Arena) (x : NodeId) : List NodeId :=
  (x :: a.ancestors x).filter fun id => (a.element? id).isSome

/-- The declarations of these elements by prefix, each element's in map order. -/
def declarationsAround (a : Arena) (x : NodeId) : List (Option String × NodeId) :=
  (a.elementsAround x).flatMap fun id => (a.shelfAt .declarations id).entries

/-- The text of a node. -/
def value? (a : Arena) (id : NodeId) : Option String :=
  (a.find? id).bind fun node => node.kind.value?

/-- A declaration binds its prefix, but for a default declaration without a value. -/
def Binds (a : Arena) (entry : Option String × NodeId) : Prop :=
  ¬ (entry.1 = none ∧ a.value? entry.2 = some "")

instance : DecidablePred a.Binds := fun _ => inferInstanceAs (Decidable (¬ (_ ∧ _)))

/-- The declaration by which an element binds a prefix. -/
def declarationAt (a : Arena) (nsPrefix : Option String) (element : NodeId) : Option NodeId :=
  ((a.shelfAt .declarations element).get? nsPrefix).filter fun id => a.Binds (nsPrefix, id)

/-- What an element itself binds a prefix to. -/
def bindingAt (a : Arena) (nsPrefix : Option String) (element : NodeId) : Option String :=
  (a.declarationAt nsPrefix element).bind a.value?

theorem bindingAt_of_undeclared
    (undeclared : (a.shelfAt .declarations element).get? nsPrefix = none) :
    a.bindingAt nsPrefix element = none := by
  rw [bindingAt, declarationAt, undeclared]
  rfl

theorem bindingAt_of_declared {value : String}
    (entry : (a.shelfAt .declarations element).get? nsPrefix = some id)
    (holds : a.value? id = some value) :
    a.bindingAt nsPrefix element = if nsPrefix = none ∧ value = "" then none else some value := by
  have binds : a.Binds (nsPrefix, id) ↔ ¬ (nsPrefix = none ∧ value = "") := by
    rw [Binds, holds, Option.some_inj]
  rw [bindingAt, declarationAt, entry, Option.filter_some]
  simp only [decide_eq_true_eq, binds, ite_not]
  split
  next => rfl
  next => exact holds

/-! ## Collecting -/

theorem Consistent.exists_value (h : a.Consistent)
    (entry : (a.shelfAt .declarations element).get? nsPrefix = some id) :
    ∃ value, a.namespaceData id = .ok ⟨nsPrefix, value⟩ ∧ a.value? id = some value := by
  obtain ⟨value, valued⟩ := h.exists_namespaceData entry
  obtain ⟨node, live, kind⟩ := namespaceData_eq_ok_iff.1 valued
  refine ⟨value, valued, ?_⟩
  rw [value?, live, Option.bind_some, kind]
  rfl

/-- A declaration is added if it binds a new prefix. -/
theorem Consistent.bind_eq (h : a.Consistent)
    (entry : (a.shelfAt .declarations element).get? nsPrefix = some id) (found : NamespaceMap) :
    ∃ found', a.bind found id = .ok found' ∧
      found'.entries = firsts (found.entries ++ [(nsPrefix, id)].filter a.Binds) := by
  obtain ⟨value, valued, holds⟩ := h.exists_value entry
  have binds : (nsPrefix.isNone && value.isEmpty) = true ↔ ¬ a.Binds (nsPrefix, id) := by
    rw [Binds, holds, Bool.and_eq_true, Option.isNone_iff_eq_none, String.isEmpty_iff,
      Option.some_inj, not_not]
  rw [bind, valued]
  show ∃ found', (if (nsPrefix.isNone && value.isEmpty) = true then pure found
    else if found.contains nsPrefix = true then pure found
    else pure (found.insert nsPrefix id) : Except TreeError NamespaceMap) = .ok found' ∧ _
  split
  next empty =>
    refine ⟨found, rfl, ?_⟩
    rw [List.filter_cons_of_neg (by simpa using binds.1 empty), List.filter_nil, List.append_nil,
      firsts_of_nodup found.nodup]
  next bound =>
    have kept : a.Binds (nsPrefix, id) := not_not.1 (mt binds.2 bound)
    rw [List.filter_cons_of_pos (by simpa using kept), List.filter_nil,
      ← OrderedMap.entries_add_eq_firsts]
    split
    next => exact ⟨found, rfl, rfl⟩
    next => exact ⟨_, rfl, rfl⟩

/-- Declarations of one element are added one after the other. -/
theorem Consistent.foldlM_bind_eq (h : a.Consistent) {entries : List (Option String × NodeId)}
    (inside : entries ⊆ (a.shelfAt .declarations element).entries) (found : NamespaceMap) :
    ∃ found', (entries.map Prod.snd).foldlM a.bind found = .ok found' ∧
      found'.entries = firsts (found.entries ++ entries.filter a.Binds) := by
  induction entries generalizing found with
  | nil => exact ⟨found, rfl, by rw [List.filter_nil, List.append_nil, firsts_of_nodup found.nodup]⟩
  | cons entry rest ih =>
    rw [List.cons_subset] at inside
    obtain ⟨middle, first, middleEntries⟩ := h.bind_eq (OrderedMap.mem_entries_iff.1 inside.1) found
    obtain ⟨found', later, entries'⟩ := ih inside.2 middle
    refine ⟨found', ?_, ?_⟩
    · rw [List.map_cons, List.foldlM_cons, bind_eq_ok_iff]
      exact ⟨middle, first, later⟩
    · rw [entries', middleEntries, firsts_firsts_append, List.append_assoc, ← List.filter_append]
      rfl

theorem Consistent.bindAll_eq (h : a.Consistent) {data : ElementData}
    (holds : a.element? element = some data) (found : NamespaceMap) :
    ∃ found', a.bindAll found data = .ok found' ∧ found'.entries
      = firsts (found.entries ++ (a.shelfAt .declarations element).entries.filter a.Binds) := by
  have same : data.declarations = a.shelfAt .declarations element :=
    (shelfAt_of_element? .declarations holds).symm
  rw [bindAll, same]
  exact h.foldlM_bind_eq (List.Subset.refl _) found

/-- A container that is no element has no owner. -/
theorem Consistent.unowned_of_container (h : a.Consistent) (container : a.IsContainer x)
    (other : a.element? x = none) : a.owner? x = none := by
  obtain ⟨node, live, holds⟩ := container
  rw [element?_of_find? live] at other
  by_contra owned
  obtain ⟨owner, owned⟩ := Option.ne_none_iff_exists'.1 owned
  obtain ⟨place, placed⟩ := h.exists_place?_of_owner? owned
  rw [place?_of_find? live] at placed
  obtain ⟨_, _, kind⟩ := node
  cases kind with
  | document data => cases placed
  | element data => cases other
  | _ => cases holds

/-- Along a lineage the declarations of all elements on it are added. -/
theorem Consistent.bindLineage_eq (h : a.Consistent) (traces : lineage.Traces a)
    (container : a.IsContainer lineage.first) (found : NamespaceMap) :
    ∃ found', a.bindLineage found lineage = .ok found' ∧ found'.entries = firsts (found.entries
      ++ ((lineage.ids.filter fun id => (a.element? id).isSome).flatMap fun id =>
        (a.shelfAt .declarations id).entries).filter a.Binds) := by
  induction lineage generalizing found with
  | missing id =>
    obtain ⟨node, live, _⟩ := container
    cases traces.symm.trans live
  | top id node =>
    rw [bindLineage, ← element?_of_find? traces.1, Lineage.ids]
    cases holds : a.element? id with
    | none =>
      refine ⟨found, rfl, ?_⟩
      simp [holds, firsts_of_nodup found.nodup]
    | some data =>
      obtain ⟨found', bound, entries'⟩ := h.bindAll_eq holds found
      refine ⟨found', bound, ?_⟩
      simp [holds, entries']
  | step id node above ih =>
    have owned : a.owner? id = some above.first := traces.owns_first
    rw [bindLineage, ← element?_of_find? traces.1, Lineage.ids]
    cases holds : a.element? id with
    | none =>
      cases owned.symm.trans (h.unowned_of_container container holds)
    | some data =>
      obtain ⟨middle, own, middleEntries⟩ := h.bindAll_eq holds found
      obtain ⟨found', higher, entries'⟩ := ih traces.2.2 (h.isContainer_of_owner? owned) middle
      refine ⟨found', bind_eq_ok_iff.2 ⟨middle, own, higher⟩, ?_⟩
      rw [entries', middleEntries, firsts_firsts_append, List.append_assoc, ← List.filter_append,
        List.filter_cons_of_pos (by rw [holds]; rfl), List.flatMap_cons]

/-! ## What is collected -/

theorem builtInBindings_entries : builtInBindings.entries = [(some xmlPrefix, xmlDeclaration)] :=
  rfl

/-- What is in scope at an element is the first declaration under each prefix. -/
theorem Sound.inScope_eq (h : a.Sound) {data : ElementData}
    (holds : a.element element = .ok data) : ∃ found, a.inScope element = .ok found ∧
      found.entries = firsts ((some xmlPrefix, xmlDeclaration) ::
        (a.declarationsAround element).filter a.Binds) := by
  have container : a.IsContainer (a.lineage element).first := by
    rw [first_lineage]
    exact isContainer_of_element? (element_eq_ok_iff.1 holds)
  obtain ⟨found, bound, entries⟩ :=
    h.bindLineage_eq (traces_lineage h.founded element) container builtInBindings
  refine ⟨found, ?_, ?_⟩
  · rw [inScope, holds]
    exact bound
  · rw [entries, builtInBindings_entries, ids_lineage]
    rfl

theorem findSome?_congr {α β : Type} {f g : α → Option β} {xs : List α}
    (same : ∀ x ∈ xs, f x = g x) : xs.findSome? f = xs.findSome? g := by
  induction xs with
  | nil => rfl
  | cons x rest ih =>
    rw [List.forall_mem_cons] at same
    rw [List.findSome?_cons, List.findSome?_cons, same.1, ih same.2]

/-- What is found first has a value, so the first value is the value of what is found first. -/
theorem bind_findSome? {α β γ : Type} {f : α → Option β} {g : β → Option γ}
    (total : ∀ x y, f x = some y → ∃ z, g y = some z) (xs : List α) :
    (xs.findSome? f).bind g = xs.findSome? fun x => (f x).bind g := by
  induction xs with
  | nil => rfl
  | cons x rest ih =>
    rw [List.findSome?_cons, List.findSome?_cons]
    cases first : f x with
    | none => exact ih
    | some y =>
      obtain ⟨z, value⟩ := total x y first
      simp only [Option.bind_some, value]

/-- The first declaration of a prefix has the value that the nearest element binds it to. -/
theorem Consistent.exists_binding (h : a.Consistent) (nsPrefix : Option String)
    (elements : List NodeId) :
    (elements.findSome? (a.declarationAt nsPrefix) = none ∧
        elements.findSome? (a.bindingAt nsPrefix) = none) ∨
      ∃ id value, elements.findSome? (a.declarationAt nsPrefix) = some id ∧
        a.namespaceData id = .ok ⟨nsPrefix, value⟩ ∧
          elements.findSome? (a.bindingAt nsPrefix) = some value := by
  have declared : ∀ z id, a.declarationAt nsPrefix z = some id →
      ∃ value, a.namespaceData id = .ok ⟨nsPrefix, value⟩ ∧ a.value? id = some value :=
    fun z id kept => h.exists_value (Option.filter_eq_some_iff.1 kept).1
  have values : _ = elements.findSome? (a.bindingAt nsPrefix) :=
    bind_findSome? (fun z id kept => (declared z id kept).imp fun _ => And.right) elements
  rw [← values]
  cases first : elements.findSome? (a.declarationAt nsPrefix) with
  | none => exact .inl ⟨rfl, rfl⟩
  | some id =>
    obtain ⟨z, _, kept⟩ := List.exists_of_findSome?_eq_some first
    obtain ⟨value, valued, holds⟩ := declared z id kept
    exact .inr ⟨id, value, rfl, valued, holds⟩

/-- The value of a prefix is what the nearest element binds it to, but for `xml`. -/
theorem Sound.lookupNamespace_eq (h : a.Sound) {data : ElementData}
    (holds : a.element element = .ok data) (nsPrefix : Option String) :
    a.lookupNamespace element nsPrefix = .ok (if nsPrefix = some xmlPrefix then some xmlNamespace
      else (a.elementsAround element).findSome? (a.bindingAt nsPrefix)) := by
  obtain ⟨found, collected, entries⟩ := h.inScope_eq holds
  have looked : found.get? nsPrefix = if some xmlPrefix = nsPrefix then some xmlDeclaration
      else (a.elementsAround element).findSome? (a.declarationAt nsPrefix) := by
    rw [OrderedMap.get?, entries, lookup_firsts, lookup_cons_eq_ite, declarationsAround,
      OrderedMap.lookup_flatMap_entries]
    rfl
  refine bind_eq_ok_iff.2 ⟨found, collected, ?_⟩
  rw [looked]
  by_cases builtIn : nsPrefix = some xmlPrefix
  · have valued : a.namespaceData xmlDeclaration = .ok ⟨some xmlPrefix, xmlNamespace⟩ :=
      namespaceData_eq_ok_iff.2 ⟨_, h.builtIn, rfl⟩
    rw [if_pos builtIn.symm, if_pos builtIn]
    show (do return some (← a.namespaceData xmlDeclaration).value) = _
    rw [valued]
    rfl
  · rw [if_neg (Ne.symm builtIn), if_neg builtIn]
    rcases h.exists_binding nsPrefix (a.elementsAround element) with
      ⟨nothing, unbound⟩ | ⟨id, value, first, valued, bound⟩
    · rw [nothing, unbound]
      rfl
    · rw [first, bound]
      show (do return some (← a.namespaceData id).value) = _
      rw [valued]
      rfl

/-! ## The laws -/

/-- A declaration of any other prefix than `xml` that binds its prefix. -/
def Counts (a : Arena) (entry : Option String × NodeId) : Prop :=
  entry.1 ≠ some xmlPrefix ∧ a.Binds entry

instance : DecidablePred a.Counts := fun _ => inferInstanceAs (Decidable (_ ∧ _))

/-- What is in scope at the elements of an arena. -/
structure ScopeLaws (a : Arena) : Prop where
  /-- In scope are `xml` and the first declaration that counts under each other prefix, from
  the inside out. -/
  inScope : ∀ element data, a.element element = .ok data → ∃ found,
    a.inScope element = .ok found ∧ found.entries = (some xmlPrefix, xmlDeclaration) ::
      firsts ((a.declarationsAround element).filter a.Counts)
  /-- The prefix `xml` is bound to its own namespace. -/
  xml : ∀ element data, a.element element = .ok data →
    a.lookupNamespace element (some xmlPrefix) = .ok (some xmlNamespace)
  /-- Any other prefix is bound to what the nearest element binds it to, if one does. -/
  lookup : ∀ element data nsPrefix, a.element element = .ok data → nsPrefix ≠ some xmlPrefix →
    a.lookupNamespace element nsPrefix
      = .ok ((a.elementsAround element).findSome? (a.bindingAt nsPrefix))

/-- In every reachable arena the bindings in scope are those that the declarations say. -/
theorem Reachable.scopeLaws (reachable : Reachable config a) : a.ScopeLaws where
  inScope element data holds := by
    obtain ⟨found, collected, entries⟩ := reachable.sound.inScope_eq holds
    refine ⟨found, collected, ?_⟩
    rw [entries, firsts, dropKey_firsts, dropKey, List.filter_filter]
    have counts : ∀ entry, decide (a.Counts entry)
        = (decide (entry.1 ≠ some xmlPrefix) && decide (a.Binds entry)) := by
      intro entry
      exact Bool.decide_and _ _
    simp only [counts]
  xml element data holds := by
    rw [reachable.sound.lookupNamespace_eq holds, if_pos rfl]
  lookup element data nsPrefix holds other := by
    rw [reachable.sound.lookupNamespace_eq holds, if_neg other]

/-- The bindings of an element below one that declares the same prefixes, where the inner
default declaration has no value. -/
theorem scopeLaws_of_nesting :
    let a := ((Session.start {}).runAll [.createElement none "a", .createElement none "b",
      .appendChild ⟨1⟩ ⟨2⟩, .addNamespace ⟨1⟩ none "u", .addNamespace ⟨1⟩ (some "p") "v",
      .addNamespace ⟨2⟩ none "", .addNamespace ⟨2⟩ (some "p") "",
      .addNamespace ⟨2⟩ (some "") "w"]).arena
    a.inScope ⟨2⟩ =
        .ok (.ofList [(some "xml", ⟨0⟩), (some "p", ⟨6⟩), (some "", ⟨7⟩), (none, ⟨3⟩)]) ∧
      a.ScopeLaws :=
  ⟨by decide +kernel, Reachable.scopeLaws (Reachable.runAll (s := .start {}) .empty _)⟩

end XmlTree.Arena
