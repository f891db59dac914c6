import XmlTree.Arena.Lineage

/-!
# Bindings in scope

The bindings in scope at an element are collected from the inside out.  The
prefix `xml` is always bound, to the built-in declaration.  After that the
element's own declarations count, then those of the element around it, and so on
up to the first ancestor that is not an element.  The first declaration of a
prefix wins.

A default declaration without a value declares nothing: the search for a default
namespace goes on above it.  An empty value of any other prefix is a binding.
-/

namespace XmlTree

namespace Arena

/-- Adds a declaration to the bindings found so far, if it binds a new prefix. -/
def bind (a : Arena) (found : NamespaceMap) (declaration : NodeId) :
    Except TreeError NamespaceMap := do
  let data ← a.namespaceData declaration
  if data.nsPrefix.isNone && data.value.isEmpty then return found
  else if found.contains data.nsPrefix then return found
  else return found.insert data.nsPrefix declaration

/-- Adds the declarations of an element, in map order. -/
def bindAll (a : Arena) (found : NamespaceMap) (data : ElementData) :
    Except TreeError NamespaceMap :=
  data.declarations.values.foldlM a.bind found

/-- Adds the declarations along a lineage, up to the first node that is no
element. -/
def bindLineage (a : Arena) (found : NamespaceMap) : Lineage → Except TreeError NamespaceMap
  | .missing id => throw (.notFound id)
  | .top _ node =>
      match node.element? with
      | some data => a.bindAll found data
      | none => return found
  | .step _ node above =>
      match node.element? with
      | some data => do a.bindLineage (← a.bindAll found data) above
      | none => return found

/-- The bindings that are there before any declaration is read. -/
def builtInBindings : NamespaceMap := OrderedMap.empty.insert (some xmlPrefix) xmlDeclaration

/-- The bindings in scope at an element. -/
def inScope (a : Arena) (element : NodeId) : Except TreeError NamespaceMap := do
  discard (a.element element)
  a.bindLineage builtInBindings (a.lineage element)

/-- The namespace that a prefix is bound to at an element. -/
def lookupNamespace (a : Arena) (element : NodeId) (nsPrefix : Option String) :
    Except TreeError (Option String) := do
  match (← a.inScope element).get? nsPrefix with
  | some declaration => return some (← a.namespaceData declaration).value
  | none => return none

end Arena

end XmlTree
