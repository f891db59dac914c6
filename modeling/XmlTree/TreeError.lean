import XmlTree.Node

/-!
# Failures

An operation on a tree fails for one of the causes listed here.  Each cause
carries the identities and numbers it is about.  `TreeError.message` is the one
place that puts a cause into words, and `TreeError.category` names its family.
-/

namespace XmlTree

/-- The type of node that an operation asked for. -/
inductive Expected where
  /-- A node of one type. -/
  | exactly (type : NodeType)
  /-- A document or an element. -/
  | container
deriving DecidableEq, Repr

/-- The name of what was asked for. -/
def Expected.name : Expected → String
  | exactly type => type.name
  | container => "Document or Element"

/-- The ways to ask for a tree that cannot be. -/
inductive HierarchyFault where
  /-- The child is the parent itself or one of its ancestors. -/
  | ancestor (child parent : NodeId)
  /-- The node to take away belongs to another parent or to none. -/
  | notChild (child parent : NodeId)
  /-- The node to insert before belongs to another parent or to none. -/
  | referenceNotChild (reference parent : NodeId)
  /-- Attributes and declarations are taken away by key, not as children. -/
  | ownedThroughMap (child : NodeId)
  /-- An owned node cannot be destroyed. -/
  | stillOwned (child owner : NodeId)
  /-- Nodes of this type are never children. -/
  | notInsertable (type : NodeType) (child : NodeId)
  /-- The built-in declaration belongs to no element. -/
  | builtInOwned
  /-- The built-in declaration is never destroyed. -/
  | builtInReleased
  /-- A caller's own check refused the node. -/
  | refused (reason : String)
deriving DecidableEq, Repr

/-- The wording of a hierarchy fault. -/
def HierarchyFault.message : HierarchyFault → String
  | ancestor child parent => child.label ++ " is an ancestor of " ++ parent.label
  | notChild child parent => child.label ++ " is not a child of " ++ parent.label
  | referenceNotChild reference parent =>
      "reference " ++ reference.label ++ " is not a child of " ++ parent.label
  | ownedThroughMap child => child.label ++ " is owned through a map, not the child list"
  | stillOwned child owner => child.label ++ " is still owned by " ++ owner.label
  | notInsertable type child =>
      type.name ++ " node " ++ child.label ++ " cannot be inserted as a child"
  | builtInOwned => "the built-in xml namespace declaration cannot be owned"
  | builtInReleased => "the built-in xml namespace declaration cannot be released"
  | refused reason => reason

/-- Why an operation on a tree failed. -/
inductive TreeError where
  /-- No live node has this identity. -/
  | notFound (id : NodeId)
  /-- The node is of another type than the operation needs. -/
  | wrongType (expected : Expected) (actual : NodeType)
  /-- A name with a prefix needs a namespace. -/
  | unboundPrefix (qualifiedName : String)
  /-- The node names an owner that does not list it. -/
  | lost (child parent : NodeId)
  /-- A climb that counts on an owner meets a node without one. -/
  | adrift (id : NodeId)
  /-- The tree asked for cannot be. -/
  | hierarchy (fault : HierarchyFault)
  /-- A node would lie deeper than the arena allows. -/
  | tooDeep (depth limit : Nat)
  /-- The two nodes have no common root by which to order them. -/
  | unorderable (first second : NodeId)
  /-- Every identity has been handed out. -/
  | full (slots : Nat)
deriving DecidableEq, Repr

namespace TreeError

/-- The wording of a failure. -/
def message : TreeError → String
  | notFound id => "Node not found: " ++ id.label
  | wrongType expected actual =>
      "Invalid node type: expected " ++ expected.name ++ ", got " ++ actual.name
  | unboundPrefix qualifiedName =>
      "Namespace error: prefixed name '" ++ qualifiedName ++ "' requires a non-null namespace"
  | lost child parent =>
      "Internal inconsistency: " ++ child.label ++ " lost from parent " ++ parent.label
  | adrift id => "Internal inconsistency: " ++ id.label ++ " lost its parent during a walk"
  | hierarchy fault => "Hierarchy request error: " ++ fault.message
  | tooDeep depth limit =>
      "Maximum tree depth exceeded: " ++ toString depth ++ " > " ++ toString limit
  | unorderable first second =>
      "Nodes " ++ first.label ++ " and " ++ second.label ++ " have no common orderable root"
  | full slots => "Arena is full: " ++ toString slots ++ " slots allocated"

/-- The family a failure belongs to. -/
def category : TreeError → String
  | notFound _ => "NodeNotFound"
  | wrongType _ _ => "InvalidNodeType"
  | unboundPrefix _ => "NamespaceConstraint"
  | lost _ _ | adrift _ => "InternalInconsistency"
  | hierarchy _ => "HierarchyRequest"
  | tooDeep _ _ => "MaxDepthExceeded"
  | unorderable _ _ => "UnorderableNodes"
  | full _ => "ArenaFull"

end TreeError

end XmlTree
