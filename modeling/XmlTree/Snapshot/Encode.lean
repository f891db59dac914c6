import XmlTree.Arena
import XmlTree.Snapshot.Value

/-!
# Writing snapshots

An arena is written with all its slots, the empty ones as null.  A node has its
identity, its owner and its payload.  A payload is an object with one member,
named for the type.  The maps of an element are written as lists of pairs, which
keeps their order.
-/

namespace XmlTree.Snapshot

/-! ## Parts -/

/-- A count. -/
def encodeNat (n : Nat) : Value := .int n

/-- An identity. -/
def encodeId (id : NodeId) : Value := encodeNat id.index

/-- A value that may be absent. -/
def encodeOption {α : Type} (encode : α → Value) : Option α → Value
  | some x => encode x
  | none => .null

/-- A text that may be absent. -/
def encodeText? : Option String → Value := encodeOption .str

/-- A list of identities. -/
def encodeIds (ids : List NodeId) : Value := .arr (ids.map encodeId)

/-- A map, given how its keys are written. -/
def encodeMap {κ : Type} (encodeKey : κ → Value) (map : OrderedMap κ NodeId) : Value :=
  .obj [("entries", .arr (map.entries.map fun entry =>
    .arr [encodeKey entry.1, encodeId entry.2]))]

/-- An expanded name. -/
def encodeName (name : ExpandedName) : Value :=
  .obj [("namespace", encodeText? name.namespaceUri), ("local", .str name.localName)]

/-- A map of attributes. -/
def encodeAttributes : AttributeMap → Value := encodeMap encodeName

/-- A map of declarations. -/
def encodeDeclarations : NamespaceMap → Value := encodeMap encodeText?

/-! ## Nodes -/

/-- The content of a payload. -/
def encodeContent : NodeKind → Value
  | .document data => .obj
      [("index", encodeNat data.index), ("uri", encodeText? data.uri),
        ("children", encodeIds data.children)]
  | .element data => .obj
      [("namespace_uri", encodeText? data.namespaceUri), ("local_name", .str data.localName),
        ("qualified_name", .str data.qualifiedName),
        ("attributes", encodeAttributes data.attributes),
        ("namespaces", encodeDeclarations data.declarations),
        ("children", encodeIds data.children)]
  | .attr data => .obj
      [("namespace_uri", encodeText? data.namespaceUri), ("local_name", .str data.localName),
        ("qualified_name", .str data.qualifiedName), ("value", .str data.value)]
  | .namespaceDecl data => .obj
      [("prefix", encodeText? data.nsPrefix), ("value", .str data.value)]
  | .text value => .str value
  | .comment value => .str value

/-- A payload, under the name of its type. -/
def encodeKind (kind : NodeKind) : Value := .obj [(kind.type.name, encodeContent kind)]

/-- A node. -/
def encodeNode (node : Node) : Value :=
  .obj [("id", encodeId node.id), ("parent", encodeOption encodeId node.parent),
    ("kind", encodeKind node.kind)]

/-! ## Arenas -/

/-- The settings of an arena. -/
def encodeConfig (config : Config) : Value :=
  .obj [("initial_capacity", encodeNat config.initialCapacity),
    ("max_depth", encodeNat config.maxDepth)]

/-- An arena. -/
def encode (a : Arena) : Value :=
  .obj [("nodes", .arr (a.slots.toList.map (encodeOption encodeNode))),
    ("live", encodeNat a.live), ("config", encodeConfig a.config)]

end XmlTree.Snapshot
