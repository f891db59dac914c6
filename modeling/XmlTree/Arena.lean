import XmlTree.TreeError

/-!
# The arena

Every node of every tree lives in one table of slots.  A node's identity is the
number of its slot.  A released slot stays empty, so an identity is never handed
out twice.  Slot 0 holds the built-in declaration of the prefix `xml`, which is
not counted among the live nodes.

Look-ups go by slot number.  The identity written in a node is what listings
report; in an arena built by the operations of this library the two agree.
-/

namespace XmlTree

/-- The settings of an arena. -/
structure Config where
  /-- The number of slots to expect. -/
  initialCapacity : Nat := 1024
  /-- How many parent steps a node may lie below the top of its tree. -/
  maxDepth : Nat := 4096
deriving DecidableEq, Repr

/-- A table of nodes. -/
structure Arena where
  /-- The slots by number.  An empty slot has been released. -/
  slots : Array (Option Node)
  /-- The number of live nodes, the built-in declaration not counted. -/
  live : Nat
  /-- The settings. -/
  config : Config
deriving DecidableEq

namespace Arena

/-! ## The empty arena -/

/-- The identity of the built-in declaration of the prefix `xml`. -/
def xmlDeclaration : NodeId := ⟨0⟩

/-- The node of the built-in declaration. -/
def xmlDeclarationNode : Node where
  id := xmlDeclaration
  parent := none
  kind := .namespaceDecl ⟨some xmlPrefix, xmlNamespace⟩

/-- The arena that holds the built-in declaration only. -/
def empty (config : Config) : Arena where
  slots := #[some xmlDeclarationNode]
  live := 0
  config := config

/-- How many slots there can be. -/
def slotLimit : Nat := Nat.pow 2 32

/-! ## Look-up -/

/-- The node in the slot of `id`. -/
def find? (a : Arena) (id : NodeId) : Option Node := a.slots[id.index]?.join

/-- Whether the slot of `id` holds a node. -/
def contains (a : Arena) (id : NodeId) : Bool := (a.find? id).isSome

/-- The node of a live identity. -/
def get (a : Arena) (id : NodeId) : Except TreeError Node :=
  match a.find? id with
  | some node => .ok node
  | none => .error (.notFound id)

/-- The type of a live node. -/
def nodeType (a : Arena) (id : NodeId) : Except TreeError NodeType :=
  return (← a.get id).type

/-- The owner of a live node. -/
def parent (a : Arena) (id : NodeId) : Except TreeError (Option NodeId) :=
  return (← a.get id).parent

/-- The children of a live node, in order. -/
def children (a : Arena) (id : NodeId) : Except TreeError (List NodeId) :=
  return (← a.get id).children

/-- The children listed in the slot of `id`.  An empty slot lists none. -/
def childrenAt (a : Arena) (id : NodeId) : List NodeId :=
  ((a.find? id).map Node.children).getD []

/-- The child list of a container. -/
def containerChildren (a : Arena) (id : NodeId) : Except TreeError (List NodeId) := do
  let node ← a.get id
  if node.type.isContainer then return node.children
  else throw (.wrongType .container node.type)

/-- The data of an element. -/
def element (a : Arena) (id : NodeId) : Except TreeError ElementData := do
  let node ← a.get id
  match node.element? with
  | some data => return data
  | none => throw (.wrongType (.exactly .element) node.type)

/-- The data of an attribute. -/
def attributeData (a : Arena) (id : NodeId) : Except TreeError AttributeData := do
  let node ← a.get id
  match node.attribute? with
  | some data => return data
  | none => throw (.wrongType (.exactly .attr) node.type)

/-- The data of a namespace declaration. -/
def namespaceData (a : Arena) (id : NodeId) : Except TreeError NamespaceData := do
  let node ← a.get id
  match node.namespaceDecl? with
  | some data => return data
  | none => throw (.wrongType (.exactly .namespaceDecl) node.type)

/-- The data of a document. -/
def document (a : Arena) (id : NodeId) : Except TreeError DocumentData := do
  let node ← a.get id
  match node.document? with
  | some data => return data
  | none => throw (.wrongType (.exactly .document) node.type)

/-! ## Listings -/

/-- The nodes in slot order, the built-in declaration left out. -/
def nodes (a : Arena) : List Node := (a.slots.toList.drop 1).filterMap id

/-- The identities of the listed nodes. -/
def nodeIds (a : Arena) : List NodeId := a.nodes.map Node.id

/-- Whether no node is live. -/
def isEmpty (a : Arena) : Bool := a.live == 0

/-! ## Change of a slot -/

/-- The arena with the node in the slot of `id` changed.  An empty slot stays
empty. -/
def update (a : Arena) (id : NodeId) (f : Node → Node) : Arena :=
  { a with slots := a.slots.modify id.index (Option.map f) }

/-- The arena with one more node, in a new slot. -/
def push (a : Arena) (kind : NodeKind) : Arena :=
  { a with slots := a.slots.push (some ⟨⟨a.slots.size⟩, none, kind⟩), live := a.live + 1 }

/-- The arena with the slot of `id` emptied and one live node less. -/
def vacate (a : Arena) (id : NodeId) : Arena :=
  { a with slots := a.slots.setIfInBounds id.index none, live := a.live - 1 }

/-- A change of one slot is seen in that slot only. -/
theorem find?_update (a : Arena) (id other : NodeId) (f : Node → Node) :
    (a.update id f).find? other = if id = other then (a.find? other).map f else a.find? other := by
  have : (id = other) ↔ id.index = other.index := by
    cases id; cases other; simp
  simp only [find?, update, Array.getElem?_modify, this]
  split <;> cases a.slots[other.index]? <;> rfl

/-- A vacated slot is empty and the others are as before. -/
theorem find?_vacate (a : Arena) (id other : NodeId) :
    (a.vacate id).find? other = if id = other then none else a.find? other := by
  have : (id = other) ↔ id.index = other.index := by
    cases id; cases other; simp
  simp only [find?, vacate, Array.getElem?_setIfInBounds, this]
  split
  · split <;> rfl
  · rfl

end Arena

end XmlTree
