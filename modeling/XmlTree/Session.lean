import XmlTree.Edit.Children
import XmlTree.Edit.Ownership

/-!
# Sessions

A session is an arena together with the number that the next document gets.  The
number goes up with every attempt to create a document and never comes down, not
even when another arena takes the place of the first.  So documents are numbered
in the order of their creation.

A `Command` is one edit with its arguments, and `Session.run` carries it out.
What can be reached from an empty arena is what a list of commands leads to.
-/

namespace XmlTree

/-- An edit, by name and arguments. -/
inductive Command where
  | createDocument (uri : Option String)
  | createElement (namespaceUri : Option String) (qualifiedName : String)
  | createAttribute (namespaceUri : Option String) (qualifiedName localName value : String)
  | createNamespace (nsPrefix : Option String) (uri : String)
  | createText (value : String)
  | createComment (value : String)
  | appendChild (parent child : NodeId)
  | insertBefore (parent child reference : NodeId)
  | removeChild (parent child : NodeId)
  | release (id : NodeId)
  | setPrefix (element : NodeId) (nsPrefix : Option String)
  | setDocumentUri (document : NodeId) (uri : Option String)
  | addAttribute (element : NodeId) (namespaceUri : Option String)
      (qualifiedName localName value : String)
  | setAttribute (element id : NodeId)
  | removeAttribute (element : NodeId) (name : ExpandedName)
  | setAttributeValue (id : NodeId) (value : String)
  | addNamespace (element : NodeId) (nsPrefix : Option String) (uri : String)
  | setNamespace (element id : NodeId)
  | removeNamespace (element : NodeId) (nsPrefix : Option String)
deriving DecidableEq

/-- What a command answers. -/
inductive Reply where
  /-- Nothing but success. -/
  | done
  /-- The identity of a new node. -/
  | made (id : NodeId)
  /-- The node that was replaced or taken away, if there was one. -/
  | displaced (id : Option NodeId)
deriving DecidableEq

namespace Command

/-- The edit that a command stands for.  A new document gets the given number. -/
def edit (documentNumber : Nat) : Command → Edit Reply
  | createDocument uri => .made <$> Edit.createDocument documentNumber uri
  | createElement namespaceUri qualifiedName =>
      .made <$> Edit.createElement namespaceUri qualifiedName
  | createAttribute namespaceUri qualifiedName localName value =>
      .made <$> Edit.createAttribute namespaceUri qualifiedName localName value
  | createNamespace nsPrefix uri => .made <$> Edit.createNamespace nsPrefix uri
  | createText value => .made <$> Edit.createText value
  | createComment value => .made <$> Edit.createComment value
  | appendChild parent child => (fun _ => .done) <$> Edit.appendChild parent child
  | insertBefore parent child reference =>
      (fun _ => .done) <$> Edit.insertBefore parent child reference
  | removeChild parent child => (fun _ => .done) <$> Edit.removeChild parent child
  | release id => (fun _ => .done) <$> Edit.release id
  | setPrefix element nsPrefix => (fun _ => .done) <$> Edit.setPrefix element nsPrefix
  | setDocumentUri document uri => (fun _ => .done) <$> Edit.setDocumentUri document uri
  | addAttribute element namespaceUri qualifiedName localName value =>
      .made <$> Edit.addAttribute element namespaceUri qualifiedName localName value
  | setAttribute element id => .displaced <$> Edit.setAttribute element id
  | removeAttribute element name => .displaced <$> Edit.removeAttribute element name
  | setAttributeValue id value => (fun _ => .done) <$> Edit.setAttributeValue id value
  | addNamespace element nsPrefix uri => .made <$> Edit.addNamespace element nsPrefix uri
  | setNamespace element id => .displaced <$> Edit.setNamespace element id
  | removeNamespace element nsPrefix => .displaced <$> Edit.removeNamespace element nsPrefix

/-- Whether a command asks for a new document. -/
def isCreateDocument : Command → Bool
  | createDocument _ => true
  | _ => false

end Command

/-- An arena and the number of the next document. -/
structure Session where
  /-- The arena. -/
  arena : Arena
  /-- The number that the next document gets. -/
  nextDocument : Nat

namespace Session

/-- A session with an empty arena.  The first document gets number 1. -/
def start (config : Config) : Session := ⟨.empty config, 1⟩

/-- Carries out a command.  A failing command may leave changes behind. -/
def run (s : Session) (command : Command) : Except TreeError Reply × Session :=
  let (reply, arena) := (command.edit s.nextDocument).outcome s.arena
  (reply, ⟨arena, if command.isCreateDocument then s.nextDocument + 1 else s.nextDocument⟩)

/-- The session after a list of commands, failing ones included. -/
def runAll (s : Session) (commands : List Command) : Session :=
  commands.foldl (fun s command => (s.run command).2) s

/-- The session with another arena in place of its own. -/
def restore (s : Session) (arena : Arena) : Session := { s with arena }

end Session

end XmlTree
