import XmlTree.Arena.BaseUri
import XmlTree.Arena.Scope
import XmlTree.Proofs.Lineage
import XmlTree.Proofs.Ownership.Children

/-!
# Arenas that differ in the place of one child

A move changes the owner that the child names and the child lists of the owners it
leaves and gets.  `Shifts child` relates two arenas that differ in nothing else.  The
relation is symmetric and transitive, so it holds over a whole move when it holds over
taking the child out (`shifts_unlink`) and putting it in (`shifts_link`).

What is asked of a node on the way up depends on the owners and on what the nodes on the
way say beside their owner and their children (`Node.bare`).  So for a node that is not
below the child the lineages in both arenas are alike (`Shifts.lineage_alike`), and
everything that is read off alike lineages is the same.
-/

namespace XmlTree

open Relation (ReflTransGen TransGen)

/-! ## Bare nodes -/

/-- A node without its owner and without its children. -/
def Node.bare (node : Node) : Node := (node.mapChildren fun _ => []).withParent none

section Bare

variable (node : Node)

theorem Node.bare_mapChildren (g : List NodeId → List NodeId) :
    (node.mapChildren g).bare = node.bare := by
  obtain ⟨id, parent, kind⟩ := node
  cases kind <;> rfl

theorem Node.type_bare : node.bare.type = node.type := node.kind.type_mapChildren _

theorem Node.attribute?_bare : node.bare.attribute? = node.attribute? := by
  obtain ⟨id, parent, kind⟩ := node
  cases kind <;> rfl

theorem Node.namespaceDecl?_bare : node.bare.namespaceDecl? = node.namespaceDecl? := by
  obtain ⟨id, parent, kind⟩ := node
  cases kind <;> rfl

theorem Node.element?_bare :
    node.bare.element? = node.element?.map fun data => { data with children := [] } :=
  Node.element?_mapChildren _ node

theorem Node.document?_bare :
    node.bare.document? = node.document?.map fun data => { data with children := [] } := by
  obtain ⟨id, parent, kind⟩ := node
  cases kind <;> rfl

end Bare

namespace Arena

variable {a a' b : Arena} {child id owner x : NodeId} {node node' : Node}

/-! ## Shifts -/

/-- Two arenas that differ at most in where one child stands. -/
structure Shifts (child : NodeId) (a a' : Arena) : Prop where
  /-- Every other node names the same owner. -/
  owners : ∀ x, x ≠ child → a'.owner? x = a.owner? x
  /-- Without the child every child list is the same. -/
  siblings : ∀ p, (a'.childrenAt p).filter (· ≠ child) = (a.childrenAt p).filter (· ≠ child)
  /-- Every slot says the same beside owner and children. -/
  nodes : ∀ x, (a'.find? x).map Node.bare = (a.find? x).map Node.bare

namespace Shifts

theorem refl (child : NodeId) (a : Arena) : Shifts child a a where
  owners _ _ := rfl
  siblings _ := rfl
  nodes _ := rfl

theorem symm (h : Shifts child a a') : Shifts child a' a where
  owners x apart := (h.owners x apart).symm
  siblings p := (h.siblings p).symm
  nodes x := (h.nodes x).symm

theorem trans (first : Shifts child a b) (second : Shifts child b a') : Shifts child a a' where
  owners x apart := (second.owners x apart).trans (first.owners x apart)
  siblings p := (second.siblings p).trans (first.siblings p)
  nodes x := (second.nodes x).trans (first.nodes x)

end Shifts

/-! ## Taking out and putting in -/

theorem filter_erase_ne (ids : List NodeId) (child : NodeId) :
    (ids.erase child).filter (· ≠ child) = ids.filter (· ≠ child) := by
  induction ids with
  | nil => rfl
  | cons first rest ih =>
    by_cases same : first = child
    · subst same
      rw [List.erase_cons_head, List.filter_cons_of_neg (by simp)]
    · rw [List.erase_cons_tail (by simpa using same), List.filter_cons_of_pos (by simpa using same),
        List.filter_cons_of_pos (by simpa using same), ih]

theorem filter_insertIdx_ne (ids : List NodeId) (i : Nat) (child : NodeId) :
    (ids.insertIdx i child).filter (· ≠ child) = ids.filter (· ≠ child) := by
  induction ids generalizing i with
  | nil => cases i <;> simp
  | cons first rest ih =>
    cases i with
    | zero => rw [List.insertIdx_zero, List.filter_cons_of_neg (by simp)]
    | succ i => rw [List.insertIdx_succ_cons, List.filter_cons, List.filter_cons, ih]

theorem filter_append_singleton_ne (ids : List NodeId) (child : NodeId) :
    (ids ++ [child]).filter (· ≠ child) = ids.filter (· ≠ child) := by
  rw [List.filter_append, List.filter_cons_of_neg (by simp), List.filter_nil, List.append_nil]

theorem map_bare_mapChildren (g : List NodeId → List NodeId) (x : NodeId) :
    ((a.update id (Node.mapChildren g)).find? x).map Node.bare = (a.find? x).map Node.bare :=
  map_find?_update (f := Node.mapChildren g) (fun node _ => node.bare_mapChildren g) x

theorem map_bare_withParent (parent : Option NodeId) (x : NodeId) :
    ((a.update id (Node.withParent parent)).find? x).map Node.bare = (a.find? x).map Node.bare :=
  map_find?_update (f := Node.withParent parent) (fun _ _ => rfl) x

theorem shifts_unlink (h : a.Consistent) (child : NodeId) :
    Shifts child a (a.unlink child) where
  owners x apart := by rw [owner?_unlink, if_neg apart.symm]
  siblings p := by rw [childrenAt_unlink h child, filter_erase_ne]
  nodes x := by
    cases owned : a.owner? child with
    | none => rw [unlink_of_unowned owned]
    | some owner => rw [unlink_of_owner owned, map_bare_withParent, map_bare_mapChildren]

theorem shifts_link {place : List NodeId → List NodeId} (container : a.IsContainer owner)
    (live : a.contains child = true)
    (adds : ∀ ids, (place ids).filter (· ≠ child) = ids.filter (· ≠ child)) :
    Shifts child a (a.link owner child place) where
  owners x apart := by rw [owner?_link live, if_neg apart.symm]
  siblings p := by
    rw [childrenAt_link container]
    split
    next same => rw [adds]
    next other => rfl
  nodes x := by rw [link, map_bare_withParent, map_bare_mapChildren]

namespace Shifts

/-! ## Reading single nodes -/

theorem exists_find? (h : Shifts child a a') (found : a.find? x = some node) :
    ∃ node', a'.find? x = some node' ∧ node'.bare = node.bare := by
  have same := h.nodes x
  rw [found, Option.map_some] at same
  exact Option.map_eq_some_iff.1 same

theorem contains (h : Shifts child a a') (x : NodeId) : a'.contains x = a.contains x := by
  have same := congrArg Option.isSome (h.nodes x)
  rwa [Option.isSome_map, Option.isSome_map] at same

theorem find?_eq_none (h : Shifts child a a') (missing : a.find? x = none) : a'.find? x = none := by
  have same := h.nodes x
  rwa [missing, Option.map_none, Option.map_eq_none_iff] at same

/-- A question about a node that concerns neither owner nor children has one answer. -/
theorem get_bind (h : Shifts child a a') {β : Type} {question : Node → Except TreeError β}
    (bare : ∀ node, question node.bare = question node) (x : NodeId) :
    (a'.get x >>= question) = (a.get x >>= question) := by
  cases found : a.find? x with
  | none => rw [get_of_not_find? found, get_of_not_find? (h.find?_eq_none found)]
  | some node =>
    obtain ⟨node', found', same⟩ := h.exists_find? found
    rw [get_of_find? found, get_of_find? found']
    show question node' = question node
    rw [← bare node', same, bare]

theorem attributeData (h : Shifts child a a') (x : NodeId) :
    a'.attributeData x = a.attributeData x :=
  h.get_bind (fun node => by rw [node.attribute?_bare, node.type_bare]) x

theorem namespaceData (h : Shifts child a a') (x : NodeId) :
    a'.namespaceData x = a.namespaceData x :=
  h.get_bind (fun node => by rw [node.namespaceDecl?_bare, node.type_bare]) x

/-- Nodes that agree when bare are both no elements, or elements that declare the same. -/
theorem element?_cases (same : node'.bare = node.bare) :
    node'.element? = none ∧ node.element? = none ∨ ∃ data' data, node'.element? = some data' ∧
      node.element? = some data ∧ data'.declarations = data.declarations := by
  have bares : node'.element?.map (fun data => { data with children := [] })
      = node.element?.map fun data => { data with children := [] } := by
    rw [← Node.element?_bare, ← Node.element?_bare, same]
  cases holds' : node'.element? with
  | none =>
    rw [holds', Option.map_none] at bares
    exact Or.inl ⟨rfl, Option.map_eq_none_iff.1 bares.symm⟩
  | some data' =>
    rw [holds', Option.map_some] at bares
    obtain ⟨data, holds, strips⟩ := Option.map_eq_some_iff.1 bares.symm
    exact Or.inr ⟨data', data, rfl, holds, (congrArg ElementData.declarations strips).symm⟩

/-- Whether a node is an element has one answer. -/
theorem discard_element (h : Shifts child a a') (x : NodeId) :
    discard (a'.element x) = discard (a.element x) := by
  cases found : a.find? x with
  | none =>
    rw [Arena.element, Arena.element, get_of_not_find? found,
      get_of_not_find? (h.find?_eq_none found)]
  | some node =>
    obtain ⟨node', found', same⟩ := h.exists_find? found
    have types : node'.type = node.type := by rw [← node'.type_bare, same, node.type_bare]
    rcases element?_cases same with ⟨no', no⟩ | ⟨data', data, yes', yes, _⟩
    · rw [element_of_not_element? found no, element_of_not_element? found' no', types]
    · rw [element_eq_ok_iff.2 ((element?_of_find? found).trans yes),
        element_eq_ok_iff.2 ((element?_of_find? found').trans yes')]
      rfl

end Shifts

end Arena

/-! ## Alike lineages -/

/-- Two lineages have the same identities, and the nodes on them differ at most in owners
and children. -/
inductive Lineage.Alike : Lineage → Lineage → Prop
  /-- They end at one node. -/
  | top {id : NodeId} {node node' : Node} (same : node'.bare = node.bare) :
      Alike (.top id node) (.top id node')
  /-- They end at one missing identity. -/
  | missing (id : NodeId) : Alike (.missing id) (.missing id)
  /-- They go on alike above one node. -/
  | step {id : NodeId} {node node' : Node} {above above' : Lineage}
      (same : node'.bare = node.bare) (higher : Alike above above') :
      Alike (.step id node above) (.step id node' above')

namespace Lineage.Alike

variable {lineage lineage' : Lineage}

theorem ids (h : lineage.Alike lineage') : lineage'.ids = lineage.ids := by
  induction h with
  | top same => rfl
  | missing id => rfl
  | step same higher ih => rw [Lineage.ids, Lineage.ids, ih]

theorem ancestors (h : lineage.Alike lineage') : lineage'.ancestors = lineage.ancestors := by
  cases h with
  | top same => rfl
  | missing id => rfl
  | step same higher => exact higher.ids

theorem root_step (id : NodeId) (node : Node) (above : Lineage) :
    Summit.root <$> (Lineage.step id node above).summit = Summit.root <$> above.summit := by
  rw [summit]
  cases above.summit <;> rfl

theorem root (h : lineage.Alike lineage') :
    Summit.root <$> lineage'.summit = Summit.root <$> lineage.summit := by
  induction h with
  | top same => rfl
  | missing id => rfl
  | step same higher ih => rw [root_step, root_step, ih]

end Lineage.Alike

namespace Arena.Shifts

variable {a a' : Arena} {child owner x : NodeId} {node node' : Node} {lineage lineage' : Lineage}

/-! ## Reading lineages -/

/-- Above a node that is not below the child nothing shifts. -/
theorem lineage_alike (h : Shifts child a a') (founded : a.Founded) (founded' : a'.Founded)
    (outside : ¬ ReflTransGen a.Owns child x) : (a.lineage x).Alike (a'.lineage x) := by
  induction x using founded.induction with
  | _ x ih =>
    cases found : a.find? x with
    | none =>
      rw [lineage_of_missing found, lineage_of_missing (h.find?_eq_none found)]
      exact .missing x
    | some node =>
      obtain ⟨node', found', same⟩ := h.exists_find? found
      have apart : x ≠ child := fun here => outside (here ▸ .refl)
      have owners : node'.parent = node.parent := by
        rw [← owner?_of_find? found, ← owner?_of_find? found', h.owners x apart]
      cases owned : node.parent with
      | none =>
        rw [lineage_of_top found owned, lineage_of_top found' (owners.trans owned)]
        exact .top same
      | some owner =>
        have owns : a.Owns owner x := (owner?_of_find? found).trans owned
        rw [lineage_of_owner founded found owned,
          lineage_of_owner founded' found' (owners.trans owned)]
        exact .step same (ih owner owns fun below => outside (below.tail owns))

theorem statedBase_bare (a : Arena) (node : Node) : a.statedBase node.bare = a.statedBase node := by
  obtain ⟨id, parent, kind⟩ := node
  cases kind <;> rfl

theorem statedBase (h : Shifts child a a') (same : node'.bare = node.bare) :
    a'.statedBase node' = a.statedBase node := by
  rw [← statedBase_bare a' node', same, statedBase_bare]
  simp only [Arena.statedBase, h.attributeData]

theorem rootBase_bare (r : Resolver) (node : Node) : rootBase r node.bare = rootBase r node := by
  rw [rootBase, rootBase, Node.document?_bare]
  cases node.document? <;> rfl

theorem baseAlong (h : Shifts child a a') (alike : lineage.Alike lineage') (r : Resolver)
    (pending : List String) : a'.baseAlong r pending lineage' = a.baseAlong r pending lineage := by
  induction alike generalizing pending with
  | @top id node node' same =>
    rw [Arena.baseAlong, Arena.baseAlong, ← rootBase_bare r node', same, rootBase_bare]
  | missing id => rfl
  | step same higher ih => simp only [Arena.baseAlong, h.statedBase same, ih]

theorem bind (h : Shifts child a a') : a'.bind = a.bind := by
  funext found declaration
  rw [Arena.bind, Arena.bind, h.namespaceData]

theorem bindLineage (h : Shifts child a a') (alike : lineage.Alike lineage')
    (found : NamespaceMap) : a'.bindLineage found lineage' = a.bindLineage found lineage := by
  have declares : ∀ {data' data : ElementData} (found : NamespaceMap),
      data'.declarations = data.declarations → a'.bindAll found data' = a.bindAll found data := by
    intro data' data found same
    rw [bindAll, bindAll, h.bind, same]
  induction alike generalizing found with
  | top same =>
    rcases element?_cases same with ⟨no', no⟩ | ⟨data', data, yes', yes, declared⟩
    · simp only [Arena.bindLineage, no', no]
    · simp only [Arena.bindLineage, yes', yes, declares found declared]
  | missing id => rfl
  | step same higher ih =>
    rcases element?_cases same with ⟨no', no⟩ | ⟨data', data, yes', yes, declared⟩
    · simp only [Arena.bindLineage, no', no]
    · simp only [Arena.bindLineage, yes', yes, declares found declared, ih]

end Arena.Shifts

end XmlTree
