import XmlTree.Arena

/-!
# Edits

An edit changes an arena and gives a result or a failure.  A failing edit also
leaves an arena behind: whatever it changed before it failed stays changed.
Whether an operation ever fails after a change is a property of the operation,
and the type does not hide it.
-/

namespace XmlTree

/-- A computation that changes an arena and may fail. -/
abbrev Edit (α : Type) := EStateM TreeError Arena α

namespace Edit

/-! ## Steps -/

/-- Asks the current arena a question. -/
def query {α : Type} (question : Arena → Except TreeError α) : Edit α := fun a =>
  match question a with
  | .ok answer => .ok answer a
  | .error e => .error e a

/-- Changes a live node. -/
def change (id : NodeId) (f : Node → Node) : Edit Unit := fun a =>
  if a.contains id then .ok () (a.update id f) else .error (.notFound id) a

/-- Gives the owner of a live node a new value. -/
def setParent (id : NodeId) (parent : Option NodeId) : Edit Unit :=
  change id (Node.withParent parent)

/-- Fills a new slot, as long as identities last. -/
def allocate (kind : NodeKind) : Edit NodeId := fun a =>
  if a.slots.size < Arena.slotLimit then .ok ⟨a.slots.size⟩ (a.push kind)
  else .error (.full a.slots.size) a

/-- The outcome of an edit and the arena it leaves behind. -/
def outcome {α : Type} (edit : Edit α) (a : Arena) : Except TreeError α × Arena :=
  match edit a with
  | .ok answer a' => (.ok answer, a')
  | .error e a' => (.error e, a')

/-! ## Construction -/

/-- Creates a document with the given place in the order of creation. -/
def createDocument (index : Nat) (uri : Option String) : Edit NodeId :=
  allocate (.document ⟨index, uri, []⟩)

/-- Creates an element.  The local name is what follows the first colon of the
qualified name.  A prefixed name needs a namespace. -/
def createElement (namespaceUri : Option String) (qualifiedName : String) : Edit NodeId := do
  let name := QName.ofString qualifiedName
  if name.nsPrefix.isSome && namespaceUri.isNone then throw (.unboundPrefix qualifiedName)
  allocate (.element ⟨namespaceUri, name.localName, qualifiedName, ∅, ∅, []⟩)

/-- Creates an attribute.  The names are taken as they are given. -/
def createAttribute (namespaceUri : Option String) (qualifiedName localName value : String) :
    Edit NodeId :=
  allocate (.attr ⟨namespaceUri, localName, qualifiedName, value⟩)

/-- Creates a namespace declaration. -/
def createNamespace (nsPrefix : Option String) (uri : String) : Edit NodeId :=
  allocate (.namespaceDecl ⟨nsPrefix, uri⟩)

/-- Creates a text node. -/
def createText (value : String) : Edit NodeId := allocate (.text value)

/-- Creates a comment. -/
def createComment (value : String) : Edit NodeId := allocate (.comment value)

end Edit

end XmlTree
