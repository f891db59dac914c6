import XmlTree.Arena
import XmlTree.Snapshot.Value

/-!
# Reading snapshots

Reading checks the form of a value and the ranges of its numbers, and nothing
else: what it reads may be an arena in which nothing fits together.

A record may be written as an object or as the array of its fields in order.  In
an object, members that no field has are passed over, and a field that may be
null may be left out.  No field may be there twice.  The settings of an arena may
be left out in both forms.  A payload is an object with exactly one member, named
for its type.
-/

namespace XmlTree.Snapshot

/-! ## Records -/

/-- The fields of a record by name.  An object has each of them once at most.  An
array has all of them, except that it may end before the last `optional` ones. -/
def fields? (names : List String) (optional : Nat) : Value → Option (List (Option Value))
  | .obj members =>
      if ((members.map Prod.fst).filter (· ∈ names)).Nodup then
        some (names.map (members.lookup ·))
      else none
  | .arr items =>
      if names.length ≤ items.length + optional ∧ items.length ≤ names.length then
        some (items.map some ++ List.replicate (names.length - items.length) none)
      else none
  | _ => none

/-- Reads a field that must be there. -/
def required {α : Type} (decode : Value → Option α) (field : Option Value) : Option α :=
  field.bind decode

/-- Reads a field that may be null or left out. -/
def nullable {α : Type} (decode : Value → Option α) : Option Value → Option (Option α)
  | none => some none
  | some .null => some none
  | some value => (decode value).map some

/-! ## Parts -/

/-- A whole number below a bound. -/
def decodeNat (bound : Nat) : Value → Option Nat
  | .int (.ofNat n) => if n < bound then some n else none
  | _ => none

/-- A count, which has 64 bits. -/
def decodeCount : Value → Option Nat := decodeNat (Nat.pow 2 64)

/-- An identity, which has 32 bits. -/
def decodeId (value : Value) : Option NodeId := (decodeNat (Nat.pow 2 32) value).map NodeId.mk

/-- A text. -/
def decodeText : Value → Option String
  | .str text => some text
  | _ => none

/-- A list, given how its items are read. -/
def decodeList {α : Type} (decode : Value → Option α) : Value → Option (List α)
  | .arr items => items.mapM decode
  | _ => none

/-- A pair of a key and an identity. -/
def decodeEntry {κ : Type} (decodeKey : Value → Option κ) : Value → Option (κ × NodeId)
  | .arr [key, id] => return (← decodeKey key, ← decodeId id)
  | _ => none

/-- A map.  A repeated key keeps its first place and its last identity. -/
def decodeMap {κ : Type} [DecidableEq κ] (decodeKey : Value → Option κ) (value : Value) :
    Option (OrderedMap κ NodeId) := do
  match ← fields? ["entries"] 0 value with
  | [entries] => return .ofList (← required (decodeList (decodeEntry decodeKey)) entries)
  | _ => none

/-- An expanded name. -/
def decodeName (value : Value) : Option ExpandedName := do
  match ← fields? ["namespace", "local"] 0 value with
  | [uri, localName] => return ⟨← nullable decodeText uri, ← required decodeText localName⟩
  | _ => none

/-- A map of attributes. -/
def decodeAttributes : Value → Option AttributeMap := decodeMap decodeName

/-- A map of declarations. -/
def decodeDeclarations : Value → Option NamespaceMap :=
  decodeMap fun key => nullable decodeText (some key)

/-! ## Nodes -/

/-- The payload of a document. -/
def decodeDocument (value : Value) : Option DocumentData := do
  match ← fields? ["index", "uri", "children"] 0 value with
  | [index, uri, children] =>
      return ⟨← required decodeCount index, ← nullable decodeText uri,
        ← required (decodeList decodeId) children⟩
  | _ => none

/-- The payload of an element. -/
def decodeElement (value : Value) : Option ElementData := do
  match ← fields? ["namespace_uri", "local_name", "qualified_name", "attributes", "namespaces",
      "children"] 0 value with
  | [uri, localName, qualifiedName, attributes, declarations, children] =>
      return ⟨← nullable decodeText uri, ← required decodeText localName,
        ← required decodeText qualifiedName, ← required decodeAttributes attributes,
        ← required decodeDeclarations declarations, ← required (decodeList decodeId) children⟩
  | _ => none

/-- The payload of an attribute. -/
def decodeAttribute (value : Value) : Option AttributeData := do
  match ← fields? ["namespace_uri", "local_name", "qualified_name", "value"] 0 value with
  | [uri, localName, qualifiedName, text] =>
      return ⟨← nullable decodeText uri, ← required decodeText localName,
        ← required decodeText qualifiedName, ← required decodeText text⟩
  | _ => none

/-- The payload of a namespace declaration. -/
def decodeNamespace (value : Value) : Option NamespaceData := do
  match ← fields? ["prefix", "value"] 0 value with
  | [nsPrefix, uri] => return ⟨← nullable decodeText nsPrefix, ← required decodeText uri⟩
  | _ => none

/-- A payload. -/
def decodeKind : Value → Option NodeKind
  | .obj [(name, content)] =>
      match name with
      | "Document" => (decodeDocument content).map .document
      | "Element" => (decodeElement content).map .element
      | "Attribute" => (decodeAttribute content).map .attr
      | "Namespace" => (decodeNamespace content).map .namespaceDecl
      | "Text" => (decodeText content).map .text
      | "Comment" => (decodeText content).map .comment
      | _ => none
  | _ => none

/-- A node. -/
def decodeNode (value : Value) : Option Node := do
  match ← fields? ["id", "parent", "kind"] 0 value with
  | [id, parent, kind] =>
      return ⟨← required decodeId id, ← nullable decodeId parent, ← required decodeKind kind⟩
  | _ => none

/-! ## Arenas -/

/-- The settings of an arena. -/
def decodeConfig (value : Value) : Option Config := do
  match ← fields? ["initial_capacity", "max_depth"] 0 value with
  | [capacity, depth] => return ⟨← required decodeCount capacity, ← required decodeCount depth⟩
  | _ => none

/-- An arena. -/
def decode (value : Value) : Option Arena := do
  match ← fields? ["nodes", "live", "config"] 1 value with
  | [nodes, live, config] =>
      let slots ← required (decodeList fun slot => nullable decodeNode (some slot)) nodes
      let config ← match config with
        | some config => decodeConfig config
        | none => some {}
      return ⟨slots.toArray, ← required decodeCount live, config⟩
  | _ => none

end XmlTree.Snapshot
