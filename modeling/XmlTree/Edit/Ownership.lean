import XmlTree.Edit.Release

/-!
# Attributes and declarations

An attribute or a declaration belongs to at most one element.  Both are filed in
an ordered map of their owner and name it as their parent, so one protocol serves
both.  A `Shelf` says which of the two maps is meant.

* `claim` moves a node onto the shelf of an element.  The node leaves its old
  owner, takes the place of the node under the same key if there is one, and
  that node is left without an owner.
* `discharge` takes the node under a key off the shelf.

An element may have lost track of a node that names it as its owner, or may list
one that is gone.  In an arena built by the edits of this library neither
happens.  In any other arena the first is noticed before anything changes, and
the second only after it.
-/

namespace XmlTree

/-! ## Shelves -/

/-- One of the two maps of an element, with its kind of key. -/
structure Shelf (κ : Type) where
  /-- The map. -/
  view : ElementData → OrderedMap κ NodeId
  /-- The element with another map in its place. -/
  replace : OrderedMap κ NodeId → ElementData → ElementData

namespace Shelf

/-- The attributes by expanded name. -/
def attributes : Shelf ExpandedName where
  view := ElementData.attributes
  replace map data := { data with attributes := map }

/-- The namespace declarations by prefix. -/
def declarations : Shelf (Option String) where
  view := ElementData.declarations
  replace map data := { data with declarations := map }

variable {κ : Type} [DecidableEq κ]

/-- Files a node on the shelf of an element. -/
def insert (shelf : Shelf κ) (key : κ) (id : NodeId) (node : Node) : Node :=
  node.mapElement fun data => shelf.replace ((shelf.view data).insert key id) data

/-- Takes the node under a key off the shelf of an element. -/
def erase (shelf : Shelf κ) (key : κ) (node : Node) : Node :=
  node.mapElement fun data => shelf.replace ((shelf.view data).erase key) data

/-- The node under a key on the shelf of an element. -/
def lookup (shelf : Shelf κ) (a : Arena) (element : NodeId) (key : κ) :
    Except TreeError (Option NodeId) :=
  return (shelf.view (← a.element element)).get? key

end Shelf

namespace Edit

/-! ## The protocol -/

section Protocol

variable {κ : Type} [DecidableEq κ]

/-- Takes a node off the shelf of its owner, unless the owner is `element`. -/
def leaveOwner (shelf : Shelf κ) (element id : NodeId) (key : κ) : Edit Unit := do
  match ← query (·.parent id) with
  | none => pure ()
  | some owner =>
      let listed ← query (shelf.lookup · owner key)
      unless listed = some id do throw (.lost id owner)
      unless owner = element do change owner (shelf.erase key)

/-- Moves a node onto the shelf of `element`, under `key`.  The answer is the
other node that was there before. -/
def claim (shelf : Shelf κ) (element id : NodeId) (key : κ) : Edit (Option NodeId) := do
  leaveOwner shelf element id key
  let occupant ← query (shelf.lookup · element key)
  change element (shelf.insert key id)
  setParent id (some element)
  match occupant with
  | some old =>
      if old = id then return none
      setParent old none
      return some old
  | none => return none

/-- Takes the node under `key` off the shelf of `element`.  The answer is the
node, which is left without an owner. -/
def discharge (shelf : Shelf κ) (element : NodeId) (key : κ) : Edit (Option NodeId) := do
  match ← query (shelf.lookup · element key) with
  | some id =>
      change element (shelf.erase key)
      setParent id none
      return some id
  | none => return none

/-- Runs `own` on a new node.  When it fails, the new node is released again and
the failure stands. -/
def ownOrRelease (id : NodeId) (own : Edit (Option NodeId)) : Edit NodeId := fun a =>
  match own a with
  | .ok _ a' => .ok id a'
  | .error e a' =>
      match release id a' with
      | .ok _ a'' => .error e a''
      | .error e' a'' => .error e' a''

end Protocol

/-! ## Attributes -/

/-- Gives an attribute to an element.  The answer is the attribute it replaces. -/
def setAttribute (element id : NodeId) : Edit (Option NodeId) := do
  discard (query (·.element element))
  let data ← query (·.attributeData id)
  claim .attributes element id data.expandedName

/-- Creates an attribute and gives it to an element. -/
def addAttribute (element : NodeId) (namespaceUri : Option String)
    (qualifiedName localName value : String) : Edit NodeId := do
  discard (query (·.element element))
  let id ← createAttribute namespaceUri qualifiedName localName value
  ownOrRelease id (setAttribute element id)

/-- Takes the attribute with an expanded name away from an element. -/
def removeAttribute (element : NodeId) (name : ExpandedName) : Edit (Option NodeId) :=
  discharge .attributes element name

/-- Changes the value of an attribute. -/
def setAttributeValue (id : NodeId) (value : String) : Edit Unit := do
  let data ← query (·.attributeData id)
  change id fun node => { node with kind := .attr { data with value } }

/-! ## Declarations -/

/-- Gives a declaration to an element.  The answer is the one it replaces. -/
def setNamespace (element id : NodeId) : Edit (Option NodeId) := do
  if id = Arena.xmlDeclaration then throw (.hierarchy .builtInOwned)
  discard (query (·.element element))
  let data ← query (·.namespaceData id)
  claim .declarations element id data.nsPrefix

/-- Creates a declaration and gives it to an element. -/
def addNamespace (element : NodeId) (nsPrefix : Option String) (uri : String) : Edit NodeId := do
  discard (query (·.element element))
  let id ← createNamespace nsPrefix uri
  ownOrRelease id (setNamespace element id)

/-- Takes the declaration of a prefix away from an element. -/
def removeNamespace (element : NodeId) (nsPrefix : Option String) : Edit (Option NodeId) :=
  discharge .declarations element nsPrefix

/-! ## Names and addresses -/

/-- Writes the name of an element with another prefix.  A prefix needs the
element to have a namespace. -/
def setPrefix (element : NodeId) (nsPrefix : Option String) : Edit Unit := do
  let data ← query (·.element element)
  let qualifiedName := (QName.mk nsPrefix data.localName).toString
  if nsPrefix.isSome && data.namespaceUri.isNone then throw (.unboundPrefix qualifiedName)
  change element (Node.mapElement fun data => { data with qualifiedName })

/-- Changes the address of a document. -/
def setDocumentUri (document : NodeId) (uri : Option String) : Edit Unit := do
  let data ← query (·.document document)
  change document fun node => { node with kind := .document { data with uri } }

end Edit

end XmlTree
