import XmlTree.Arena.Lineage
import XmlTree.Url.Resolver

/-!
# Base addresses

The base address of a node comes from the attributes `xml:base` on the elements
from the node upwards and, above them all, from the address of the document.
The nearest absolute one of these is where resolution starts.  The relative ones
below it are then resolved one after the other, from the outermost inwards.

An element without an owner has no say: its own `xml:base` is not read.

What is absolute, and how a reference is resolved, is up to a `Resolver`.
-/

namespace XmlTree

namespace Arena

/-- The name of the attribute `xml:base`. -/
def xmlBase : ExpandedName := ⟨some xmlNamespace, "base"⟩

/-- The value of the attribute `xml:base` of a node. -/
def statedBase (a : Arena) (node : Node) : Except TreeError (Option String) :=
  match node.element? with
  | none => return none
  | some data =>
      match data.attributes.get? xmlBase with
      | none => return none
      | some id => return some (← a.attributeData id).value

/-- The address of a root that is a document, if it is absolute. -/
def rootBase (r : Resolver) (node : Node) : Option String :=
  (node.document?.bind DocumentData.uri).filter r.isAbsolute

/-- The base address at the start of a lineage, where the references `pending`
were met below it, outermost first. -/
def baseAlong (a : Arena) (r : Resolver) (pending : List String) :
    Lineage → Except TreeError (Option String)
  | .missing id => throw (.notFound id)
  | .top _ node => return (rootBase r node).bind (r.resolveAll · pending)
  | .step _ node above => do
      match ← a.statedBase node with
      | none => a.baseAlong r pending above
      | some value =>
          if r.isAbsolute value then return r.resolveAll value pending
          else a.baseAlong r (value :: pending) above

/-- The base address of a node. -/
def baseUriWith (a : Arena) (r : Resolver) (id : NodeId) : Except TreeError (Option String) :=
  a.baseAlong r [] (a.lineage id)

/-- The base address of a node by the rules for URLs with domains in ASCII. -/
def baseUri (a : Arena) (id : NodeId) : Except TreeError (Option String) :=
  a.baseUriWith .web id

end Arena

end XmlTree
