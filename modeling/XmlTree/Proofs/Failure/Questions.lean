import XmlTree.Arena.BaseUri
import XmlTree.Arena.Element
import XmlTree.Arena.Scope
import XmlTree.Arena.Siblings
import XmlTree.Proofs.Depth
import XmlTree.Proofs.Failure.Fair
import XmlTree.Proofs.Order.Climb
import XmlTree.Proofs.Order.Full
import XmlTree.Proofs.Order.Sort

/-!
# Questions fail fairly

In a sound arena whatever is read off a live node can be looked up: its owner, what it
lists, and what stands above and below it.  So a question fails only for what the caller
named.  The walks up are followed along the lineage, which leads from a live node through
live nodes to a root (`Lineage.Traces`).  The walks down stay among live nodes
(`Sound.contains_of_mem_preorder`).
-/

namespace XmlTree.Arena

variable {a : Arena} {ids : List NodeId} {owner start top x y : NodeId} {xs ys : List NodeId}
variable {lineage : Lineage} {node : Node} {β : Type}

/-! ## What an element lists -/

theorem Consistent.exists_attributeData (h : a.Consistent) {data : ElementData}
    {name : ExpandedName} (holds : a.element? owner = some data)
    (entry : data.attributes.get? name = some x) : ∃ filed, a.attributeData x = .ok filed := by
  have listed : a.Lists owner (.attr name) x := by
    rw [Lists, shelfAt_of_element? _ holds]
    exact entry
  obtain ⟨kind, found, placed⟩ := h.find?_of_lists listed
  cases kind with
  | attr filed => exact ⟨filed, attributeData_eq_ok_iff.2 ⟨_, found, rfl⟩⟩
  | _ => cases placed

/-- What an element files under a prefix is a declaration of that prefix. -/
theorem Consistent.exists_namespaceData (h : a.Consistent) {nsPrefix : Option String}
    (entry : (a.shelfAt .declarations owner).get? nsPrefix = some x) :
    ∃ value, a.namespaceData x = .ok ⟨nsPrefix, value⟩ := by
  have listed : a.Lists owner (.declaration nsPrefix) x := entry
  obtain ⟨kind, found, placed⟩ := h.find?_of_lists listed
  cases kind with
  | namespaceDecl filed =>
    cases placed
    exact ⟨filed.value, namespaceData_eq_ok_iff.2 ⟨_, found, rfl⟩⟩
  | _ => cases placed

theorem failsFairly_attribute? (named : x ∈ ids) (name : ExpandedName) :
    a.FailsFairly ids (a.attribute? x name) :=
  (failsFairly_element named).bind fun _ _ => .pure _

theorem Consistent.failsFairly_attributeValue? (h : a.Consistent) (named : x ∈ ids)
    (name : ExpandedName) : a.FailsFairly ids (a.attributeValue? x name) := by
  refine (failsFairly_attribute? named name).bind fun found ok => ?_
  cases found with
  | none => exact .pure none
  | some id =>
    simp only [attribute?, bind_eq_ok_iff, pure_eq_ok_iff] at ok
    obtain ⟨data, element, entry⟩ := ok
    obtain ⟨filed, valued⟩ := h.exists_attributeData (element_eq_ok_iff.1 element) entry
    exact (FailsFairly.of_ok valued).bind fun _ _ => .pure _

/-! ## What a node lists -/

theorem children_of_contains (live : a.contains x = true) :
    a.children x = .ok (a.childrenAt x) := by
  obtain ⟨node, found⟩ := contains_iff.1 live
  rw [Arena.children, get_of_find? found, childrenAt_of_find? found]
  rfl

/-- A child is live. -/
theorem Consistent.contains_of_mem_childrenAt (h : a.Consistent) (child : x ∈ a.childrenAt owner) :
    a.contains x = true :=
  contains_of_owner? (h.mem_childrenAt_iff.1 child).1

theorem failsFairly_firstElement (live : ∀ x ∈ xs, a.contains x = true) :
    a.FailsFairly ids (a.firstElement xs) := by
  induction xs with
  | nil => exact .pure none
  | cons x rest ih =>
    rw [firstElement]
    refine (failsFairly_get_of_contains (live x List.mem_cons_self)).bind fun node _ => ?_
    split
    next => exact .pure _
    next => exact ih fun y later => live y (.tail _ later)

theorem Consistent.failsFairly_documentElement (h : a.Consistent) (named : x ∈ ids) :
    a.FailsFairly ids (a.documentElement x) := by
  refine (failsFairly_document named).bind fun data ok => ?_
  obtain ⟨node, found, kind⟩ := document_eq_ok_iff.1 ok
  have children : a.childrenAt x = data.children := by
    rw [childrenAt_of_find? found, Node.children, kind]
    rfl
  rw [← children]
  exact failsFairly_firstElement fun child => h.contains_of_mem_childrenAt

theorem Consistent.failsFairly_placement (h : a.Consistent) (named : x ∈ ids) :
    a.FailsFairly ids (a.placement x) := by
  refine (failsFairly_get named).bind fun node ok => ?_
  have found := get_eq_ok_iff.1 ok
  cases owned : node.parent with
  | none => exact .pure none
  | some owner =>
    have owns := (owner?_of_find? found).trans owned
    show a.FailsFairly ids (if node.type.isMapped = true then _ else _)
    split
    next mapped => exact .pure none
    next unmapped =>
      have placed := listed_of_parent h found (Bool.eq_false_iff.2 unmapped) owned
      have child : x ∈ a.childrenAt owner := h.mem_childrenAt_iff.2 ⟨owns, placed⟩
      have siblings := children_of_contains (contains_iff.2 (h.exists_find?_owner owns))
      refine (FailsFairly.of_ok siblings).bind fun children ok => ?_
      cases siblings.symm.trans ok
      cases position : (a.childrenAt owner).idxOf? x with
      | none => exact absurd child (List.idxOf?_eq_none_iff.1 position)
      | some i => exact .pure _

theorem Consistent.failsFairly_precedingSibling (h : a.Consistent) (named : x ∈ ids) :
    a.FailsFairly ids (a.precedingSibling x) := by
  refine (h.failsFairly_placement named).bind fun placement _ => ?_
  split <;> exact .pure _

theorem Consistent.failsFairly_followingSibling (h : a.Consistent) (named : x ∈ ids) :
    a.FailsFairly ids (a.followingSibling x) := by
  refine (h.failsFairly_placement named).bind fun placement _ => ?_
  split <;> exact .pure _

/-! ## Walks up -/

/-- A walk up fails fairly when it does so from a live node. -/
theorem failsFairly_of_lineage {walk : Lineage → Except TreeError β} (named : x ∈ ids)
    (missing : walk (.missing x) = throw (.notFound x))
    (live : a.contains x = true → a.FailsFairly ids (walk (a.lineage x))) :
    a.FailsFairly ids (walk (a.lineage x)) := by
  cases found : a.find? x with
  | none =>
    rw [lineage_of_missing found, missing]
    exact .throw (TreeError.fair_notFound named found)
  | some node => exact live (contains_iff.2 ⟨node, found⟩)

/-- The owner that a walk goes on to is live. -/
theorem Consistent.contains_first (h : a.Consistent) {above : Lineage}
    (traces : (Lineage.step x node above).Traces a) : a.contains above.first = true :=
  contains_iff.2 (h.exists_find?_owner traces.owns_first)

theorem not_traces_missing (traces : (Lineage.missing x).Traces a) :
    ¬ a.contains (Lineage.missing x).first = true := by
  rw [contains_iff]
  rintro ⟨node, found⟩
  cases traces.symm.trans found

theorem Consistent.failsFairly_statedBase (h : a.Consistent) (found : a.find? x = some node) :
    a.FailsFairly ids (a.statedBase node) := by
  rw [statedBase]
  cases holds : node.element? with
  | none => exact .pure none
  | some data =>
    dsimp only
    cases entry : data.attributes.get? xmlBase with
    | none => exact .pure none
    | some id =>
      obtain ⟨filed, valued⟩ := h.exists_attributeData ((element?_of_find? found).trans holds) entry
      exact (FailsFairly.of_ok valued).bind fun _ _ => .pure _

theorem Consistent.failsFairly_bind (h : a.Consistent) {data : ElementData}
    (holds : a.element? owner = some data) (found : NamespaceMap)
    (member : x ∈ data.declarations.values) : a.FailsFairly ids (a.bind found x) := by
  obtain ⟨nsPrefix, entry⟩ := OrderedMap.mem_values_iff.1 member
  have filed : (a.shelfAt .declarations owner).get? nsPrefix = some x := by
    rw [shelfAt_of_element? _ holds]
    exact entry
  obtain ⟨value, valued⟩ := h.exists_namespaceData filed
  refine (FailsFairly.of_ok valued).bind fun declared _ => ?_
  split
  next => exact .pure found
  next =>
    split
    next => exact .pure found
    next => exact .pure _

theorem Consistent.failsFairly_bindAll (h : a.Consistent) (found : NamespaceMap)
    {data : ElementData} (holds : a.element? owner = some data) :
    a.FailsFairly ids (a.bindAll found data) :=
  .foldlM (fun found _ => h.failsFairly_bind holds found) found

section Up

variable (traces : lineage.Traces a) (live : a.contains lineage.first = true)
include traces live

theorem Consistent.failsFairly_baseAlong (h : a.Consistent) (r : Resolver)
    (pending : List String) : a.FailsFairly ids (a.baseAlong r pending lineage) := by
  induction lineage generalizing pending with
  | top id node => exact .pure _
  | missing id => exact absurd live (not_traces_missing traces)
  | step id node above ih =>
    refine (h.failsFairly_statedBase traces.1).bind fun stated _ => ?_
    have higher := ih traces.2.2 (h.contains_first traces)
    cases stated with
    | none => exact higher pending
    | some value =>
      show a.FailsFairly ids (if r.isAbsolute value = true then _ else _)
      split
      next => exact .pure _
      next => exact higher (value :: pending)

theorem Consistent.failsFairly_bindLineage (h : a.Consistent) (found : NamespaceMap) :
    a.FailsFairly ids (a.bindLineage found lineage) := by
  induction lineage generalizing found with
  | top id node =>
    rw [bindLineage]
    cases holds : node.element? with
    | none => exact .pure found
    | some data => exact h.failsFairly_bindAll found ((element?_of_find? traces.1).trans holds)
  | missing id => exact absurd live (not_traces_missing traces)
  | step id node above ih =>
    rw [bindLineage]
    cases holds : node.element? with
    | none => exact .pure found
    | some data =>
      have element := (element?_of_find? traces.1).trans holds
      refine (h.failsFairly_bindAll found element).bind fun found _ => ?_
      exact ih traces.2.2 (h.contains_first traces) found

end Up

namespace Sound

theorem failsFairly_descent (h : a.Sound) (named : x ∈ ids) : a.FailsFairly ids (a.descent x) :=
  failsFairly_of_lineage named rfl fun live => by
    obtain ⟨w, way⟩ := h.exists_descent live
    exact .of_ok way

theorem failsFairly_summit (h : a.Sound) (named : x ∈ ids) :
    a.FailsFairly ids (a.lineage x).summit := by
  rw [summit_eq]
  exact (h.failsFairly_descent named).map _

theorem failsFairly_baseUriWith (h : a.Sound) (r : Resolver) (named : x ∈ ids) :
    a.FailsFairly ids (a.baseUriWith r x) :=
  failsFairly_of_lineage named rfl fun live =>
    h.toConsistent.failsFairly_baseAlong (traces_lineage h.founded x) (by rwa [first_lineage]) r []

theorem failsFairly_inScope (h : a.Sound) (named : x ∈ ids) : a.FailsFairly ids (a.inScope x) := by
  refine ((failsFairly_element named).map _).bind fun _ _ => ?_
  exact failsFairly_of_lineage named rfl fun live =>
    h.toConsistent.failsFairly_bindLineage (traces_lineage h.founded x) (by rwa [first_lineage]) _

theorem failsFairly_ownerDocument (h : a.Sound) (named : x ∈ ids) :
    a.FailsFairly ids (a.ownerDocument x) :=
  (h.failsFairly_summit named).bind fun _ _ => .pure _

end Sound

/-! ## Bindings -/

/-- All bindings are to live declarations. -/
def Declares (a : Arena) (found : NamespaceMap) : Prop :=
  ∀ nsPrefix id, found.get? nsPrefix = some id → ∃ data, a.namespaceData id = .ok data

theorem Declares.bind {found found' : NamespaceMap} (declares : a.Declares found)
    (bound : a.bind found x = .ok found') : a.Declares found' := by
  rw [Arena.bind] at bound
  simp only [bind_eq_ok_iff] at bound
  obtain ⟨data, valued, bound⟩ := bound
  split at bound
  next =>
    cases bound
    exact declares
  next =>
    split at bound
    next =>
      cases bound
      exact declares
    next =>
      cases bound
      intro nsPrefix id entry
      rw [OrderedMap.get?_insert] at entry
      split at entry
      next =>
        cases entry
        exact ⟨data, valued⟩
      next => exact declares nsPrefix id entry

theorem Declares.foldlM {found found' : NamespaceMap} (declares : a.Declares found)
    (bound : xs.foldlM a.bind found = .ok found') : a.Declares found' := by
  induction xs generalizing found with
  | nil =>
    cases bound
    exact declares
  | cons x rest ih =>
    rw [List.foldlM_cons, bind_eq_ok_iff] at bound
    obtain ⟨middle, first, later⟩ := bound
    exact ih (declares.bind first) later

theorem Declares.bindLineage {found found' : NamespaceMap} (declares : a.Declares found)
    (bound : a.bindLineage found lineage = .ok found') : a.Declares found' := by
  induction lineage generalizing found with
  | top id node =>
    rw [Arena.bindLineage] at bound
    cases holds : node.element? with
    | none =>
      rw [holds] at bound
      cases bound
      exact declares
    | some data =>
      rw [holds] at bound
      exact declares.foldlM bound
  | missing id => cases bound
  | step id node above ih =>
    rw [Arena.bindLineage] at bound
    cases holds : node.element? with
    | none =>
      rw [holds] at bound
      cases bound
      exact declares
    | some data =>
      rw [holds] at bound
      obtain ⟨middle, own, higher⟩ := bind_eq_ok_iff.1 bound
      exact ih (declares.foldlM own) higher

theorem Consistent.declares_builtIn (h : a.Consistent) : a.Declares builtInBindings := by
  intro nsPrefix id entry
  rw [builtInBindings, OrderedMap.get?_insert] at entry
  split at entry
  next =>
    cases entry
    exact ⟨_, namespaceData_eq_ok_iff.2 ⟨_, h.builtIn, rfl⟩⟩
  next => cases entry

theorem Sound.failsFairly_lookupNamespace (h : a.Sound) (named : x ∈ ids)
    (nsPrefix : Option String) : a.FailsFairly ids (a.lookupNamespace x nsPrefix) := by
  refine (h.failsFairly_inScope named).bind fun found ok => ?_
  rw [inScope] at ok
  obtain ⟨_, _, bound⟩ := bind_eq_ok_iff.1 ok
  have declares := h.toConsistent.declares_builtIn.bindLineage bound
  cases entry : found.get? nsPrefix with
  | none => exact .pure none
  | some id =>
    obtain ⟨data, valued⟩ := declares nsPrefix id entry
    exact (FailsFairly.of_ok valued).bind fun _ _ => .pure _

/-! ## Order -/

/-- Ways from one node can be compared. -/
theorem Consistent.failsFairly_compareSteps (h : a.Consistent) (wayX : a.WayDown top xs x)
    (wayY : a.WayDown top ys y) : a.FailsFairly ids (a.compareSteps top xs ys) := by
  induction wayX generalizing ys with
  | here top => cases ys <;> exact .pure _
  | @down top nextX bottom restX ownedX lowerX ih =>
    cases wayY with
    | here => exact .pure _
    | @down _ nextY _ restY ownedY lowerY =>
      rw [compareSteps]
      split
      next same =>
        subst same
        exact ih lowerY
      next apart =>
        obtain ⟨rankX, rankedX⟩ := h.exists_siblingRank ownedX
        obtain ⟨rankY, rankedY⟩ := h.exists_siblingRank ownedY
        refine (FailsFairly.of_ok rankedX).bind fun _ _ => ?_
        exact (FailsFairly.of_ok rankedY).bind fun _ _ => .pure _

theorem Sound.failsFairly_compareOrder (h : a.Sound) (namedX : x ∈ ids) (namedY : y ∈ ids) :
    a.FailsFairly ids (a.compareOrder x y) := by
  rw [compareOrder]
  split
  next same => exact ((failsFairly_get namedX).map _).bind fun _ _ => .pure _
  next apart =>
    refine (h.failsFairly_descent namedX).bind fun v wayX => ?_
    refine (h.failsFairly_descent namedY).bind fun w wayY => ?_
    split
    next same =>
      have downX := wayDown_of_descent h.founded wayX
      have downY := wayDown_of_descent h.founded wayY
      rw [← same] at downY
      exact (h.toConsistent.failsFairly_compareSteps downX downY).bind fun _ _ => .pure _
    next other => exact .pure _

theorem Sound.failsFairly_orderKey (h : a.Sound) (named : x ∈ ids) :
    a.FailsFairly ids (a.orderKey x) := by
  intro e failed
  cases found : a.find? x with
  | none =>
    rw [orderKey_of_missing found] at failed
    cases failed
    exact TreeError.fair_notFound named found
  | some node =>
    obtain ⟨key, keyed⟩ := h.exists_orderKey_iff.2 (contains_iff.2 ⟨node, found⟩)
    exact FailsFairly.of_ok keyed e failed

theorem Sound.failsFairly_sortDocumentOrder (h : a.Sound) :
    a.FailsFairly ids (a.sortDocumentOrder ids) := by
  have keyed : a.FailsFairly ids (a.keyed ids) :=
    .mapM fun x named => (h.failsFairly_orderKey named).bind fun _ _ => .pure _
  refine keyed.bind fun entries _ => ?_
  have checked : a.FailsFairly ids (checkComparable entries) := by
    intro e refused
    obtain ⟨first, _, entry, _, rfl, _⟩ := of_checkComparable_error refused
    exact TreeError.fair_iff.2 trivial
  exact checked.bind fun _ _ => .pure _

/-! ## Walks down -/

/-- Walks down from a live node meet live nodes.  A walk from any other node stops there. -/
theorem Sound.contains_of_mem_preorder (h : a.Sound) (member : x ∈ a.preorder start) :
    a.contains x = true ∨ x = start := by
  cases found : a.find? start with
  | some node =>
    have live := contains_iff.2 ⟨node, found⟩
    have listed := (preorderWithin_sublist a _ start).subset member
    exact Or.inl (contains_of_mem_fullOrder h live listed)
  | none =>
    rw [preorder, preorderWithin, childrenAt, found] at member
    simpa using Or.inr member

theorem Sound.failsFairly_descendants (h : a.Sound) (named : start ∈ ids) :
    a.FailsFairly ids (a.descendants start) := by
  rw [descendants_eq_mapM_preorder]
  refine .mapM fun x member => FailsFairly.map ?_ _
  rcases h.contains_of_mem_preorder member with live | rfl
  · exact failsFairly_get_of_contains live
  · exact failsFairly_get named

/-- A run over a list fails at its first member that fails. -/
theorem exists_append_of_forM_error {σ α : Type} {act : α → EStateM TreeError σ Unit}
    {members : List α} {e : TreeError} {state state' : σ}
    (failed : forM members act state = .error e state') : ∃ before member after middle,
      members = before ++ member :: after ∧ forM before act state = .ok () middle ∧
        act member middle = .error e state' := by
  induction members generalizing state with
  | nil => cases failed
  | cons first rest ih =>
    rw [List.forM_cons] at failed
    cases ran : act first state with
    | error e' state'' =>
      rw [Edit.bind_of_error ran] at failed
      cases failed
      exact ⟨[], first, rest, state, rfl, rfl, ran⟩
    | ok _ middle =>
      rw [Edit.bind_of_ok ran] at failed
      obtain ⟨before, member, after, last, rfl, accepted, refused⟩ := ih failed
      refine ⟨first :: before, member, after, last, rfl, ?_, refused⟩
      rw [List.forM_cons, Edit.bind_of_ok ran]
      exact accepted

/-- A traversal that fails was refused by the visitor, or never started. -/
theorem Sound.traverse_error (h : a.Sound) {σ : Type} {visit : Node → EStateM TreeError σ Unit}
    {e : TreeError} {state state' : σ} (failed : a.traverse start visit state = .error e state')
    (named : start ∈ ids) : e.Fair a ids ∨
      ∃ x node before, a.find? x = some node ∧ visit node before = .error e state' := by
  rw [traverse_eq_forM_preorder] at failed
  obtain ⟨_, x, _, before, split, _, ran⟩ := exists_append_of_forM_error failed
  have member : x ∈ a.preorder start := split ▸ List.mem_append_right _ List.mem_cons_self
  rw [showAt] at ran
  cases found : a.find? x with
  | some node =>
    rw [found] at ran
    exact Or.inr ⟨x, node, before, found, ran⟩
  | none =>
    rw [found] at ran
    cases ran
    rcases h.contains_of_mem_preorder member with live | rfl
    · obtain ⟨node, found'⟩ := contains_iff.1 live
      cases found.symm.trans found'
    · exact Or.inl (TreeError.fair_notFound named found)

theorem Consistent.failsFairly_heightWithin (h : a.Consistent) (fuel : Nat)
    (live : a.contains x = true) : a.FailsFairly ids (a.heightWithin fuel x) := by
  induction fuel generalizing x with
  | zero => exact .of_ok rfl
  | succ fuel ih =>
    have listed := children_of_contains live
    refine (FailsFairly.of_ok listed).bind fun children ok => ?_
    cases listed.symm.trans ok
    have heights : a.FailsFairly ids ((a.childrenAt x).reverse.mapM (a.heightWithin fuel)) :=
      .mapM fun child member => ih (h.contains_of_mem_childrenAt (List.mem_reverse.1 member))
    exact heights.bind fun _ _ => .pure _

end XmlTree.Arena
