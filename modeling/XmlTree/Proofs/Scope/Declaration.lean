import XmlTree.Proofs.Scope.Bindings
import XmlTree.Proofs.Transfer

/-!
# The scope of a declaration

A declaration of a prefix at an element matters to the element and to what is below it, as
far as no element further in binds the same prefix (`Exposed`).  There the prefix gets the
declared value.  A default declaration without a value binds nothing, so there the default
namespace is the one above the element.  Nothing else is looked up differently
(`DeclarationScope`).

The same elements are around an element before and after (`elementsAround_declared`), and
they bind what they bound, but for one prefix at one element (`bindingAt_declared`).  So the
question is what comes first on the way out: a binding further in, the declaration, or a
binding above (`Sound.findSome?_declared`).
-/

namespace XmlTree.Arena

variable {a a' : Arena} {config : Config} {element id x z : NodeId} {data : ElementData}
variable {nsPrefix q : Option String} {uri : String}

/-! ## The arena with the declaration -/

/-- The arena with a new declaration at an element. -/
def declared (a : Arena) (element : NodeId) (nsPrefix : Option String) (uri : String) : Arena :=
  (a.push (.namespaceDecl ⟨nsPrefix, uri⟩)).claimed .declarations element a.nextId nsPrefix

theorem element?_push_declaration (a : Arena) (filed : NamespaceData) (x : NodeId) :
    (a.push (.namespaceDecl filed)).element? x = a.element? x := by
  rw [element?, element?, find?_push]
  split
  next new =>
    rw [← new, find?_nextId]
    rfl
  next => rfl

theorem shelfAt_push_declaration {κ : Type} (shelf : Shelf κ) (a : Arena) (filed : NamespaceData)
    (x : NodeId) : (a.push (.namespaceDecl filed)).shelfAt shelf x = a.shelfAt shelf x := by
  rw [shelfAt, element?_push_declaration, shelfAt]

/-- Relinking leaves elements elements. -/
theorem Relinks.isSome_element? (relinks : a.Relinks a') (x : NodeId) :
    (a'.element? x).isSome = (a.element? x).isSome := by
  have types : ∀ b : Arena, (b.element? x).isSome
      = ((b.find? x).map Node.type).any (· = .element) := by
    intro b
    rw [element?]
    cases b.find? x with
    | none => rfl
    | some node =>
      obtain ⟨_, _, kind⟩ := node
      cases kind <;> rfl
  rw [types, types, relinks.type]

theorem value?_claimed {κ : Type} [DecidableEq κ] {shelf : Shelf κ} {key : κ} (exact : shelf.Exact)
    (x : NodeId) : (a.claimed shelf element id key).value? x = a.value? x := by
  have blanks : ∀ b : Arena, b.value? x
      = ((b.find? x).map (Node.blank shelf)).bind fun node => node.kind.value? := by
    intro b
    rw [value?, Option.bind_map]
    congr 1
    funext node
    obtain ⟨_, _, kind⟩ := node
    cases kind <;> rfl
  rw [blanks, map_blank_claimed exact, ← blanks]

theorem value?_declared (x : NodeId) : (a.declared element nsPrefix uri).value? x
    = if a.nextId = x then some uri else a.value? x := by
  rw [declared, value?_claimed Shelf.declarations_exact, value?, find?_push]
  split <;> rfl

/-- Documents and elements keep their owners. -/
theorem Consistent.owner?_declared (h : a.Consistent) (container : a.IsContainer x) :
    (a.declared element nsPrefix uri).owner? x = a.owner? x := by
  have old : a.nextId ≠ x := by
    obtain ⟨node, found, _⟩ := container
    exact nextId_ne_of_find? found
  have elsewhere : (a.push (.namespaceDecl ⟨nsPrefix, uri⟩)).occupant? .declarations element
      nsPrefix ≠ some x := by
    rw [occupant?, shelfAt_push_declaration]
    intro stands
    have placed := (h.owner?_occupant Shelf.declarations_lawful stands).2
    exact container.place?_ne Shelf.declarations_lawful nsPrefix placed
  rw [Arena.declared, owner?_claimed (h.push _ rfl) Shelf.declarations_lawful
    (place?_nextId_push a _), if_neg old, if_neg elsewhere, owner?_push]

section Declared

variable (h : a.Sound) (holds : a.element element = .ok data)
include h holds

theorem Sound.declared (nsPrefix : Option String) (uri : String) :
    (a.declared element nsPrefix uri).Sound := by
  have pushed := (Change.create (.namespaceDecl ⟨nsPrefix, uri⟩) rfl).sound h
  exact (Change.claim Shelf.declarations_lawful element a.nextId nsPrefix
    (element_eq_ok_iff.1 (element_push holds _)) (place?_nextId_push a _)
    (nextId_ne_of_find? h.builtIn)).sound pushed

theorem Sound.isSome_element?_declared (x : NodeId) :
    ((a.declared element nsPrefix uri).element? x).isSome = (a.element? x).isSome := by
  rw [Arena.declared, (relinks_claimed (h.push _ rfl) Shelf.declarations_lawful
    (element_eq_ok_iff.1 (element_push holds _)) (place?_nextId_push a _)
    (nextId_ne_of_find? h.builtIn)).isSome_element? x, element?_push_declaration]

theorem Sound.shelfAt_declared (x : NodeId) :
    (a.declared element nsPrefix uri).shelfAt .declarations x
      = if x = element then (a.shelfAt .declarations x).insert nsPrefix a.nextId
        else a.shelfAt .declarations x := by
  have unowned : (a.push (.namespaceDecl ⟨nsPrefix, uri⟩)).owner? a.nextId ≠ some x := by
    rw [owner?_push, owner?, find?_nextId]
    exact (Option.some_ne_none x).symm
  rw [Arena.declared, shelfAt_claimed (h.push _ rfl) Shelf.declarations_lawful
    (element_eq_ok_iff.1 (element_push holds _)) (place?_nextId_push a _), if_neg unowned,
    shelfAt_push_declaration]

/-- The same elements are around an element. -/
theorem Sound.elementsAround_declared (container : a.IsContainer x) :
    (a.declared element nsPrefix uri).elementsAround x = a.elementsAround x := by
  have containers : ∀ y ∈ x :: a.ancestors x, a.IsContainer y := by
    intro y member
    rcases List.mem_cons.1 member with rfl | above
    · exact container
    · obtain ⟨below, owns, _⟩ :=
        Relation.TransGen.head'_iff.1 ((mem_ancestors_iff h.founded).1 above)
      exact h.isContainer_of_owner? owns
  have climbs := ancestors_congr h.founded (h.declared holds nsPrefix uri).founded
    fun y member => h.owner?_declared (containers y member)
  rw [elementsAround, climbs, elementsAround]
  exact List.filter_congr fun y _ => h.isSome_element?_declared holds y

/-- Elements bind what they bound, but for one prefix at one element. -/
theorem Sound.bindingAt_declared (q : Option String) (z : NodeId) :
    (a.declared element nsPrefix uri).bindingAt q z = if z = element ∧ q = nsPrefix then
        if nsPrefix = none ∧ uri = "" then none else some uri
      else a.bindingAt q z := by
  have entries : ((a.declared element nsPrefix uri).shelfAt .declarations z).get? q
      = if z = element ∧ q = nsPrefix then some a.nextId
        else (a.shelfAt .declarations z).get? q := by
    rw [h.shelfAt_declared holds]
    by_cases here : z = element
    · rw [if_pos here, OrderedMap.get?_insert]
      simp only [here, true_and, eq_comm]
    · rw [if_neg here, if_neg fun both => here both.1]
  split
  next here =>
    rw [if_pos here] at entries
    rw [bindingAt_of_declared entries ((value?_declared _).trans (if_pos rfl)), here.2]
  next other =>
    rw [if_neg other] at entries
    cases entry : (a.shelfAt .declarations z).get? q with
    | none => rw [bindingAt_of_undeclared entry, bindingAt_of_undeclared (entries.trans entry)]
    | some w =>
      obtain ⟨value, valued, kept⟩ := h.exists_value entry
      have old : a.nextId ≠ w := by
        obtain ⟨_, found, _⟩ := namespaceData_eq_ok_iff.1 valued
        exact nextId_ne_of_find? found
      have kept' : (a.declared element nsPrefix uri).value? w = some value := by
        rw [value?_declared, if_neg old, kept]
      rw [bindingAt_of_declared entry kept, bindingAt_of_declared (entries.trans entry) kept']

end Declared

/-! ## Further in and further out -/

theorem elementsAround_eq_cons (holds : a.element element = .ok data) : a.elementsAround element
    = element :: (a.ancestors element).filter fun id => (a.element? id).isSome := by
  rw [elementsAround, List.filter_cons_of_pos]
  rw [element_eq_ok_iff.1 holds]
  rfl

/-- The elements around a node are those further in than one of them, and those around that
one. -/
theorem exists_elementsAround_eq_append (founded : a.Founded)
    (around : element ∈ x :: a.ancestors x) : ∃ inner,
      a.elementsAround x = inner ++ a.elementsAround element ∧
        ∀ z, z ∈ inner ↔ z ∈ a.elementsAround x ∧ element ∈ a.ancestors z := by
  obtain ⟨inner, split, inside⟩ := exists_ancestors_eq_append founded around
  refine ⟨inner.filter fun id => (a.element? id).isSome, ?_, fun z => ?_⟩
  · rw [elementsAround, split, List.filter_append, elementsAround]
  · rw [elementsAround, List.mem_filter, List.mem_filter, and_right_comm, and_congr_left_iff]
    intro _
    constructor
    · intro member
      have above : z ∈ x :: a.ancestors x := split ▸ List.mem_append_left _ member
      exact ⟨above, (inside z above).1 member⟩
    · exact fun ⟨above, below⟩ => (inside z above).2 below

/-- The elements above an element are those around its parent, if that is an element. -/
theorem Sound.filter_ancestors_cases (h : a.Sound) (element : NodeId) :
    (∃ parent data, a.parent element = .ok (some parent) ∧ a.element parent = .ok data ∧
      (a.ancestors element).filter (fun id => (a.element? id).isSome) = a.elementsAround parent) ∨
    (∀ parent data, a.parent element = .ok (some parent) → a.element parent ≠ .ok data) ∧
      (a.ancestors element).filter (fun id => (a.element? id).isSome) = [] := by
  cases owned : a.owner? element with
  | none =>
    refine .inr ⟨fun parent data named => ?_, by rw [ancestors_of_unowned owned]; rfl⟩
    cases owned.symm.trans (parent_eq_some_iff.1 named)
  | some parent =>
    have owns : a.Owns parent element := owned
    rw [ancestors_of_owns h.founded owns]
    cases holds : a.element? parent with
    | some data =>
      exact .inl ⟨parent, data, parent_eq_some_iff.2 owns, element_eq_ok_iff.2 holds, rfl⟩
    | none =>
      have top := h.unowned_of_container (h.isContainer_of_owner? owned) holds
      refine .inr ⟨fun other data named other' => ?_, ?_⟩
      · obtain rfl := Option.some.inj (owned.symm.trans (parent_eq_some_iff.1 named))
        cases holds.symm.trans (element_eq_ok_iff.1 other')
      · rw [ancestors_of_unowned top]
        simp [holds]

/-! ## What comes first on the way out -/

/-- A declaration of a prefix at an element matters to a node: the node is the element or
below it, and no element further in binds the prefix. -/
structure Exposed (a : Arena) (element : NodeId) (nsPrefix : Option String) (x : NodeId) :
    Prop where
  /-- The element is the node or above it. -/
  around : element ∈ x :: a.ancestors x
  /-- No element from the node upwards binds the prefix, as long as it is below the first. -/
  unbound : ∀ z ∈ a.elementsAround x, element ∈ a.ancestors z → a.bindingAt nsPrefix z = none

section Declared

variable (h : a.Sound) (holds : a.element element = .ok data)
include h holds

theorem Sound.findSome?_declared_of_ne {elements : List NodeId} (other : element ∉ elements) :
    elements.findSome? ((a.declared element nsPrefix uri).bindingAt q)
      = elements.findSome? (a.bindingAt q) := by
  refine findSome?_congr fun z member => ?_
  have apart : ¬ (z = element ∧ q = nsPrefix) := fun both => other (both.1 ▸ member)
  rw [h.bindingAt_declared holds, if_neg apart]

/-- What is around a node that the declaration matters to binds the prefix as declared, or
as it is bound above. -/
theorem Sound.findSome?_declared (exposed : a.Exposed element nsPrefix x) :
    (a.elementsAround x).findSome? ((a.declared element nsPrefix uri).bindingAt nsPrefix)
      = (if nsPrefix = none ∧ uri = "" then none else some uri).or
          (((a.ancestors element).filter fun id => (a.element? id).isSome).findSome?
            (a.bindingAt nsPrefix)) := by
  obtain ⟨inner, split, inside⟩ := exists_elementsAround_eq_append h.founded exposed.around
  have further : element ∉ inner := fun member =>
    h.founded.not_mem_ancestors element ((inside element).1 member).2
  have above : element ∉ (a.ancestors element).filter fun id => (a.element? id).isSome :=
    fun member => h.founded.not_mem_ancestors element (List.mem_of_mem_filter member)
  have nothing : inner.findSome? (a.bindingAt nsPrefix) = none :=
    List.findSome?_eq_none_iff.2 fun z member =>
      exposed.unbound z ((inside z).1 member).1 ((inside z).1 member).2
  rw [split, elementsAround_eq_cons holds, List.findSome?_append,
    h.findSome?_declared_of_ne holds further, nothing, Option.none_or, List.findSome?_cons,
    h.findSome?_declared_of_ne holds above, h.bindingAt_declared holds, if_pos ⟨rfl, rfl⟩]
  by_cases empty : nsPrefix = none ∧ uri = ""
  · rw [if_pos empty]
    rfl
  · rw [if_neg empty]
    rfl

/-- Every other binding is as before. -/
theorem Sound.findSome?_declared_of_unexposed
    (apart : q ≠ nsPrefix ∨ ¬ a.Exposed element nsPrefix x) :
    (a.elementsAround x).findSome? ((a.declared element nsPrefix uri).bindingAt q)
      = (a.elementsAround x).findSome? (a.bindingAt q) := by
  by_cases same : q = nsPrefix
  · subst same
    by_cases around : element ∈ x :: a.ancestors x
    · have bound : ¬ ∀ z ∈ a.elementsAround x, element ∈ a.ancestors z → a.bindingAt q z = none :=
        fun unbound => apart.resolve_left (not_not.2 rfl) ⟨around, unbound⟩
      obtain ⟨inner, split, inside⟩ := exists_elementsAround_eq_append h.founded around
      have further : element ∉ inner := fun member =>
        h.founded.not_mem_ancestors element ((inside element).1 member).2
      -- An element further in binds the prefix, so the search ends there.
      have found : inner.findSome? (a.bindingAt q) ≠ none := by
        rw [Ne, List.findSome?_eq_none_iff]
        exact fun unbound => bound fun z member below => unbound z ((inside z).2 ⟨member, below⟩)
      obtain ⟨value, found⟩ := Option.ne_none_iff_exists'.1 found
      rw [split, List.findSome?_append, List.findSome?_append,
        h.findSome?_declared_of_ne holds further, found, Option.some_or, Option.some_or]
    · exact h.findSome?_declared_of_ne holds fun member => around (List.mem_of_mem_filter member)
  · refine findSome?_congr fun z _ => ?_
    have apart' : ¬ (z = element ∧ q = nsPrefix) := fun both => same both.2
    rw [h.bindingAt_declared holds, if_neg apart']

end Declared

/-! ## The laws -/

/-- What a new declaration of a prefix at an element changes. -/
structure DeclarationScope (a : Arena) (element : NodeId) (nsPrefix : Option String)
    (uri : String) (a' : Arena) : Prop where
  /-- The same nodes are elements. -/
  elements : ∀ x, (a'.element? x).isSome = (a.element? x).isSome
  /-- Another prefix is looked up as before, and so is `xml`.  The prefix itself is looked up
  as before at a node to which the declaration does not matter. -/
  unchanged : ∀ x data q, a.element x = .ok data →
    q ≠ nsPrefix ∨ q = some xmlPrefix ∨ ¬ a.Exposed element nsPrefix x →
      a'.lookupNamespace x q = a.lookupNamespace x q
  /-- At the other nodes the prefix has the declared value. -/
  bound : ∀ x data, a.element x = .ok data → nsPrefix ≠ some xmlPrefix →
    a.Exposed element nsPrefix x → ¬ (nsPrefix = none ∧ uri = "") →
      a'.lookupNamespace x nsPrefix = .ok (some uri)
  /-- A default declaration without a value leaves them the default namespace of the parent
  element. -/
  unbound : ∀ x data, a.element x = .ok data → nsPrefix = none → uri = "" →
    a.Exposed element none x → ∀ parent parentData, a.parent element = .ok (some parent) →
      a.element parent = .ok parentData →
        a'.lookupNamespace x none = a.lookupNamespace parent none
  /-- Where there is no parent element it leaves them none. -/
  unboundTop : ∀ x data, a.element x = .ok data → nsPrefix = none → uri = "" →
    a.Exposed element none x → (∀ parent parentData, a.parent element = .ok (some parent) →
      a.element parent ≠ .ok parentData) → a'.lookupNamespace x none = .ok none

theorem Sound.lookupNamespace_declared (h : a.Sound) (holds : a.element element = .ok data)
    {inner : ElementData} (element' : a.element x = .ok inner) (q : Option String) :
    (a.declared element nsPrefix uri).lookupNamespace x q
      = .ok (if q = some xmlPrefix then some xmlNamespace
        else (a.elementsAround x).findSome? ((a.declared element nsPrefix uri).bindingAt q)) := by
  have stays : ((a.declared element nsPrefix uri).element? x).isSome = _ :=
    h.isSome_element?_declared holds x
  rw [element_eq_ok_iff.1 element'] at stays
  obtain ⟨inner', element''⟩ := Option.isSome_iff_exists.1 stays
  rw [(h.declared holds nsPrefix uri).lookupNamespace_eq (element_eq_ok_iff.2 element''),
    h.elementsAround_declared holds (isContainer_of_element? (element_eq_ok_iff.1 element'))]

theorem Sound.scope_of_declared (h : a.Sound) (holds : a.element element = .ok data) :
    a.DeclarationScope element nsPrefix uri (a.declared element nsPrefix uri) := by
  have default : none ≠ some xmlPrefix := (Option.some_ne_none xmlPrefix).symm
  refine ⟨h.isSome_element?_declared holds, ?unchanged, ?bound, ?unbound, ?unboundTop⟩
  case unchanged =>
    intro x inner q element' cases
    rw [h.lookupNamespace_declared holds element', h.lookupNamespace_eq element']
    split
    next => rfl
    next other =>
      rw [h.findSome?_declared_of_unexposed holds (cases.imp_right fun c => c.resolve_left other)]
  case bound =>
    intro x inner element' other exposed value
    rw [h.lookupNamespace_declared holds element', if_neg other,
      h.findSome?_declared holds exposed, if_neg value, Option.some_or]
  case unbound =>
    rintro x inner element' rfl rfl exposed parent parentData named holdsParent
    rcases h.filter_ancestors_cases element with ⟨parent', _, named', _, above⟩ | ⟨nobody, _⟩
    · obtain rfl := Option.some.inj (Except.ok.inj (named.symm.trans named'))
      rw [h.lookupNamespace_declared holds element', h.lookupNamespace_eq holdsParent,
        if_neg default, if_neg default, h.findSome?_declared holds exposed, if_pos ⟨rfl, rfl⟩,
        Option.none_or, above]
    · exact absurd holdsParent (nobody parent parentData named)
  case unboundTop =>
    rintro x inner element' rfl rfl exposed nobody
    rcases h.filter_ancestors_cases element with ⟨parent, _, named, holdsParent, _⟩ | ⟨_, nothing⟩
    · exact absurd holdsParent (nobody parent _ named)
    · rw [h.lookupNamespace_declared holds element', if_neg default,
        h.findSome?_declared holds exposed, if_pos ⟨rfl, rfl⟩, Option.none_or, nothing]
      rfl

/-- In every reachable arena a new declaration changes what its prefix means where nothing
further in binds the prefix, and nothing else. -/
theorem Reachable.declarationScope (reachable : Reachable config a)
    (ran : Edit.addNamespace element nsPrefix uri a = .ok id a') :
    a.DeclarationScope element nsPrefix uri a' := by
  rw [addNamespace_eq reachable.sound.toConsistent] at ran
  obtain ⟨⟨data, holds⟩, _, rfl⟩ := eq_of_added ran
  exact reachable.sound.scope_of_declared holds

/-- The default namespace is declared anew, without a value, at an element that has declared
it and has an element around it and one below it. -/
theorem declarationScope_of_empty :
    let a := ((Session.start {}).runAll [.createElement none "a", .createElement none "b",
      .createElement none "c", .appendChild ⟨1⟩ ⟨2⟩, .appendChild ⟨2⟩ ⟨3⟩,
      .addNamespace ⟨1⟩ none "u", .addNamespace ⟨2⟩ none "v"]).arena
    let redeclare := Edit.addNamespace ⟨2⟩ none ""
    (redeclare.outcome a).1 = .ok ⟨6⟩ ∧
      a.DeclarationScope ⟨2⟩ none "" (redeclare.outcome a).2 :=
  have succeeds := by decide +kernel
  ⟨succeeds, Reachable.declarationScope (Reachable.runAll (s := .start {}) .empty _)
    (Edit.run_of_outcome succeeds)⟩

end XmlTree.Arena
