import XmlTree.Proofs.Ownership.Create

/-!
# Relabelling

Three edits change what a node says and not where it stands: the prefix of an
element, the value of an attribute and the address of a document.  A node that is
relabelled keeps its owner, its place and its lists (`Node.Relabels`), so nothing
about ownership changes.
-/

namespace XmlTree

/-- The second node stands where the first one stands and lists what it lists. -/
structure Node.Relabels (node node' : Node) : Prop where
  id : node'.id = node.id
  parent : node'.parent = node.parent
  type : node'.type = node.type
  place : node'.kind.place? = node.kind.place?
  children : node'.children = node.children
  attributes : node'.element?.map ElementData.attributes = node.element?.map ElementData.attributes
  declarations :
    node'.element?.map ElementData.declarations = node.element?.map ElementData.declarations

theorem Node.relabels_qualifiedName (node : Node) (qualifiedName : String) :
    node.Relabels (node.mapElement fun data => { data with qualifiedName }) := by
  obtain ⟨id, parent, kind⟩ := node
  cases kind <;> exact ⟨rfl, rfl, rfl, rfl, rfl, rfl, rfl⟩

theorem Node.relabels_attr {node : Node} {data : AttributeData} (kind : node.kind = .attr data)
    (value : String) : node.Relabels { node with kind := .attr { data with value } } := by
  obtain ⟨id, parent, _⟩ := node
  cases kind
  exact ⟨rfl, rfl, rfl, rfl, rfl, rfl, rfl⟩

theorem Node.relabels_document {node : Node} {data : DocumentData}
    (kind : node.kind = .document data) (uri : Option String) :
    node.Relabels { node with kind := .document { data with uri } } := by
  obtain ⟨id, parent, _⟩ := node
  cases kind
  exact ⟨rfl, rfl, rfl, rfl, rfl, rfl, rfl⟩

namespace Arena

variable {a : Arena} {id owner x : NodeId} {place : Place} {node : Node} {f : Node → Node}

section Relabel

variable (same : ∀ node, a.find? id = some node → node.Relabels (f node))
include same

theorem owner?_relabel (x : NodeId) : (a.update id f).owner? x = a.owner? x :=
  bind_find?_update (fun node found => (same node found).parent) x

theorem childrenAt_relabel (x : NodeId) : (a.update id f).childrenAt x = a.childrenAt x := by
  rw [childrenAt, map_find?_update fun node found => (same node found).children, ← childrenAt]

theorem lists_relabel : (a.update id f).Lists owner place x ↔ a.Lists owner place x := by
  cases place with
  | child => rw [Lists, Lists, childrenAt_relabel same]
  | attr name =>
    simp only [Lists, shelfAt, element?, Option.map_bind]
    rw [bind_find?_update fun node found => (same node found).attributes]
  | declaration nsPrefix =>
    simp only [Lists, shelfAt, element?, Option.map_bind]
    rw [bind_find?_update fun node found => (same node found).declarations]

theorem relinks_relabel (apart : id ≠ xmlDeclaration) : a.Relinks (a.update id f) :=
  relinks_update apart fun node found =>
    ⟨(same node found).id, (same node found).type, (same node found).place⟩

theorem Consistent.relabel (h : a.Consistent) (apart : id ≠ xmlDeclaration) :
    (a.update id f).Consistent := by
  have relinks := relinks_relabel same apart
  refine h.of_relinks relinks (fun p => ?_) (fun x => ?_)
  · rw [childrenAt_relabel same]
    exact h.distinct p
  · exact (h.settled x).congr (owner?_relabel same x) (relinks.place x) fun p q =>
      lists_relabel same

end Relabel

/-! ## The edits -/

theorem setPrefix_eq (a : Arena) (element : NodeId) (nsPrefix : Option String) :
    Edit.setPrefix element nsPrefix a = match a.element element with
      | .error e => .error e a
      | .ok data =>
        if (nsPrefix.isSome && data.namespaceUri.isNone) = true then
          .error (.unboundPrefix (QName.mk nsPrefix data.localName).toString) a
        else .ok () (a.update element (Node.mapElement fun named =>
          { named with qualifiedName := (QName.mk nsPrefix data.localName).toString })) := by
  rw [Edit.setPrefix, Edit.query_bind]
  cases holds : a.element element with
  | error e => rfl
  | ok data =>
    show (if (nsPrefix.isSome && data.namespaceUri.isNone) = true then _ else _ : Edit Unit) a
      = if (nsPrefix.isSome && data.namespaceUri.isNone) = true then _ else _
    split
    next unbound => rfl
    next bound => exact Edit.change_of_live (contains_of_element? (element_eq_ok_iff.1 holds)) _

theorem setAttributeValue_eq (a : Arena) (id : NodeId) (value : String) :
    Edit.setAttributeValue id value a = match a.attributeData id with
      | .error e => .error e a
      | .ok data =>
        .ok () (a.update id fun node => { node with kind := .attr { data with value } }) := by
  rw [Edit.setAttributeValue, Edit.query_bind]
  cases holds : a.attributeData id with
  | error e => rfl
  | ok data =>
    obtain ⟨node, found, _⟩ := attributeData_eq_ok_iff.1 holds
    exact Edit.change_of_live (contains_iff.2 ⟨node, found⟩) _

theorem setDocumentUri_eq (a : Arena) (document : NodeId) (uri : Option String) :
    Edit.setDocumentUri document uri a = match a.document document with
      | .error e => .error e a
      | .ok data => .ok () (a.update document fun node =>
          { node with kind := .document { data with uri } }) := by
  rw [Edit.setDocumentUri, Edit.query_bind]
  cases holds : a.document document with
  | error e => rfl
  | ok data =>
    obtain ⟨node, found, _⟩ := document_eq_ok_iff.1 holds
    exact Edit.change_of_live (contains_iff.2 ⟨node, found⟩) _

end Arena

end XmlTree
