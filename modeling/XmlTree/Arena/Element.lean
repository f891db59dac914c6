import XmlTree.Arena.Lineage

/-!
# Elements and documents

What an element says about its name and its attributes, and what a document says
about itself and the nodes under it.
-/

namespace XmlTree.Arena

/-! ## Elements -/

/-- The attributes of an element. -/
def attributes (a : Arena) (element : NodeId) : Except TreeError AttributeMap :=
  return (← a.element element).attributes

/-- The namespace declarations of an element. -/
def declarations (a : Arena) (element : NodeId) : Except TreeError NamespaceMap :=
  return (← a.element element).declarations

/-- The expanded name of an element. -/
def expandedName (a : Arena) (element : NodeId) : Except TreeError ExpandedName :=
  return (← a.element element).expandedName

/-- The prefix that an element's name is written with. -/
def nsPrefix (a : Arena) (element : NodeId) : Except TreeError (Option String) :=
  return (← a.element element).nsPrefix

/-- The attribute of an element with a given expanded name. -/
def attribute? (a : Arena) (element : NodeId) (name : ExpandedName) :
    Except TreeError (Option NodeId) :=
  return (← a.element element).attributes.get? name

/-- The value of the attribute of an element with a given expanded name. -/
def attributeValue? (a : Arena) (element : NodeId) (name : ExpandedName) :
    Except TreeError (Option String) := do
  match ← a.attribute? element name with
  | some id => return some (← a.attributeData id).value
  | none => return none

/-- A line about an element: its name and how much it holds. -/
def describe (a : Arena) (element : NodeId) : Except TreeError String := do
  let data ← a.element element
  return "<Element " ++ element.label ++ ": name '" ++ data.qualifiedName ++ "', "
    ++ toString data.declarations.size ++ " namespaces, "
    ++ toString data.attributes.size ++ " attributes, "
    ++ toString data.children.length ++ " children>"

/-! ## Documents -/

/-- The address of a document. -/
def documentUri (a : Arena) (document : NodeId) : Except TreeError (Option String) :=
  return (← a.document document).uri

/-- The place of a document in the order of creation. -/
def documentIndex (a : Arena) (document : NodeId) : Except TreeError Nat :=
  return (← a.document document).index

/-- The document at the root of a node's tree.  A detached tree has none. -/
def ownerDocument (a : Arena) (id : NodeId) : Except TreeError (Option NodeId) := do
  let summit ← (a.lineage id).summit
  return if summit.node.document?.isSome then some summit.root else none

/-- The first element among the given children. -/
def firstElement (a : Arena) : List NodeId → Except TreeError (Option NodeId)
  | [] => return none
  | child :: rest => do
      let node ← a.get child
      if node.element?.isSome then return some child else a.firstElement rest

/-- The first element among the children of a document. -/
def documentElement (a : Arena) (document : NodeId) : Except TreeError (Option NodeId) := do
  a.firstElement (← a.document document).children

end XmlTree.Arena
