import XmlTree.OrderedMap
import XmlTree.QName

/-!
# Nodes

A node is an identity, the identity of its owner, and a payload.  Documents and
elements are containers: they list their children by identity.  An element also
lists its attributes and its namespace declarations, each in an ordered map.
An attribute is filed under its expanded name, a declaration under its prefix.

Owners are recorded on both sides.  A child names its container as `parent`, and
the container lists the child.  Nothing here keeps the two in agreement; that is
what the operations on arenas are for.
-/

namespace XmlTree

/-! ## Identities and types -/

/-- The identity of a node: the number of its slot. -/
structure NodeId where
  /-- The slot number. -/
  index : Nat
deriving DecidableEq, Repr, Inhabited

/-- The written form of an identity, as messages show it. -/
def NodeId.label (id : NodeId) : String := "#" ++ toString id.index

/-- The six types of node. -/
inductive NodeType where
  | element
  | attr
  | text
  | comment
  | document
  | namespaceDecl
deriving DecidableEq, Repr

namespace NodeType

/-- The name of a type. -/
def name : NodeType → String
  | element => "Element"
  | attr => "Attribute"
  | text => "Text"
  | comment => "Comment"
  | document => "Document"
  | namespaceDecl => "Namespace"

/-- The number of a type.  The numbers are those of the Document Object Model;
declarations, which it does not number, have 13. -/
def code : NodeType → Nat
  | element => 1
  | attr => 2
  | text => 3
  | comment => 8
  | document => 9
  | namespaceDecl => 13

/-- The type with a given number. -/
def ofCode? : Nat → Option NodeType
  | 1 => some element
  | 2 => some attr
  | 3 => some text
  | 8 => some comment
  | 9 => some document
  | 13 => some namespaceDecl
  | _ => none

/-- Whether nodes of the type list children. -/
def isContainer : NodeType → Bool
  | document | element => true
  | _ => false

/-- Whether nodes of the type can be listed as children. -/
def isChild : NodeType → Bool
  | element | text | comment => true
  | _ => false

/-- Whether nodes of the type are owned through a map of an element. -/
def isMapped : NodeType → Bool
  | attr | namespaceDecl => true
  | _ => false

theorem ofCode?_code (type : NodeType) : ofCode? type.code = some type := by
  cases type <;> rfl

end NodeType

/-! ## Payloads -/

/-- The prefix that is always bound. -/
def xmlPrefix : String := "xml"

/-- The namespace that the prefix `xml` is bound to. -/
def xmlNamespace : String := "http://www.w3.org/XML/1998/namespace"

/-- The expanded name of an attribute.  An absent namespace differs from an
empty one. -/
structure ExpandedName where
  /-- The namespace, if there is one. -/
  namespaceUri : Option String
  /-- The local name. -/
  localName : String
deriving DecidableEq, Repr

/-- The attributes of an element by expanded name. -/
abbrev AttributeMap := OrderedMap ExpandedName NodeId

/-- Declarations by prefix.  The default namespace has no prefix. -/
abbrev NamespaceMap := OrderedMap (Option String) NodeId

/-- The payload of a document. -/
structure DocumentData where
  /-- The place of the document in the order of creation. -/
  index : Nat
  /-- The address of the document. -/
  uri : Option String
  /-- The children, in order. -/
  children : List NodeId
deriving DecidableEq

/-- The payload of an element. -/
structure ElementData where
  /-- The namespace of the name. -/
  namespaceUri : Option String
  /-- The local part of the name. -/
  localName : String
  /-- The name as written. -/
  qualifiedName : String
  /-- The attributes. -/
  attributes : AttributeMap
  /-- The namespace declarations. -/
  declarations : NamespaceMap
  /-- The children, in order. -/
  children : List NodeId
deriving DecidableEq

/-- The payload of an attribute. -/
structure AttributeData where
  /-- The namespace of the name. -/
  namespaceUri : Option String
  /-- The local part of the name. -/
  localName : String
  /-- The name as written. -/
  qualifiedName : String
  /-- The value. -/
  value : String
deriving DecidableEq

/-- The payload of a namespace declaration. -/
structure NamespaceData where
  /-- The declared prefix, absent for the default namespace. -/
  nsPrefix : Option String
  /-- The namespace that the prefix is bound to. -/
  value : String
deriving DecidableEq

/-- The prefix an element's name is written with: the text before the first colon. -/
def ElementData.nsPrefix (data : ElementData) : Option String :=
  (cutAt ':' data.qualifiedName.toList).map fun cut => String.ofList cut.1

/-- The expanded name of an element. -/
def ElementData.expandedName (data : ElementData) : ExpandedName :=
  ⟨data.namespaceUri, data.localName⟩

/-- The key an attribute is filed under. -/
def AttributeData.expandedName (data : AttributeData) : ExpandedName :=
  ⟨data.namespaceUri, data.localName⟩

/-- The payload of a node, by its type. -/
inductive NodeKind where
  /-- The root of a tree. -/
  | document (data : DocumentData)
  /-- A named container. -/
  | element (data : ElementData)
  /-- An attribute of an element. -/
  | attr (data : AttributeData)
  /-- A namespace declaration of an element. -/
  | namespaceDecl (data : NamespaceData)
  /-- Character data. -/
  | text (value : String)
  /-- A comment. -/
  | comment (value : String)
deriving DecidableEq

namespace NodeKind

/-- The type of a payload. -/
def type : NodeKind → NodeType
  | document _ => .document
  | element _ => .element
  | attr _ => .attr
  | namespaceDecl _ => .namespaceDecl
  | text _ => .text
  | comment _ => .comment

/-- The children of a payload.  Only containers have any. -/
def children : NodeKind → List NodeId
  | document data => data.children
  | element data => data.children
  | _ => []

/-- The payload with its child list changed.  Only containers change. -/
def mapChildren (f : List NodeId → List NodeId) : NodeKind → NodeKind
  | document ⟨index, uri, children⟩ => .document ⟨index, uri, f children⟩
  | element ⟨namespaceUri, localName, qualifiedName, attributes, declarations, children⟩ =>
      .element ⟨namespaceUri, localName, qualifiedName, attributes, declarations, f children⟩
  | kind => kind

/-- The payload with its element data changed.  Only elements change. -/
def mapElement (f : ElementData → ElementData) : NodeKind → NodeKind
  | element data => .element (f data)
  | kind => kind

/-- The identities that a payload owns: attributes, declarations and children. -/
def owned : NodeKind → List NodeId
  | element data => data.attributes.values ++ data.declarations.values ++ data.children
  | document data => data.children
  | _ => []

/-- The text of a payload.  Containers have none. -/
def value? : NodeKind → Option String
  | attr data => some data.value
  | namespaceDecl data => some data.value
  | text value | comment value => some value
  | document _ | element _ => none

end NodeKind

/-! ## Nodes -/

/-- The content of a slot. -/
structure Node where
  /-- The identity the node was given. -/
  id : NodeId
  /-- The owner: the container of a child, the element of an attribute or of a
  declaration. -/
  parent : Option NodeId
  /-- The payload. -/
  kind : NodeKind
deriving DecidableEq

namespace Node

/-- The type of a node. -/
def type (node : Node) : NodeType := node.kind.type

/-- The children of a node.  Only containers have any. -/
def children (node : Node) : List NodeId := node.kind.children

/-- The node under another owner. -/
def withParent (parent : Option NodeId) (node : Node) : Node := { node with parent }

/-- The node with its child list changed. -/
def mapChildren (f : List NodeId → List NodeId) (node : Node) : Node :=
  { node with kind := node.kind.mapChildren f }

/-- The node with its element data changed. -/
def mapElement (f : ElementData → ElementData) (node : Node) : Node :=
  { node with kind := node.kind.mapElement f }

/-- The element data of an element. -/
def element? (node : Node) : Option ElementData :=
  match node.kind with
  | .element data => some data
  | _ => none

/-- The attribute data of an attribute. -/
def attribute? (node : Node) : Option AttributeData :=
  match node.kind with
  | .attr data => some data
  | _ => none

/-- The data of a namespace declaration. -/
def namespaceDecl? (node : Node) : Option NamespaceData :=
  match node.kind with
  | .namespaceDecl data => some data
  | _ => none

/-- The document data of a document. -/
def document? (node : Node) : Option DocumentData :=
  match node.kind with
  | .document data => some data
  | _ => none

end Node

end XmlTree
