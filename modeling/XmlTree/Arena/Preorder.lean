import XmlTree.Arena

/-!
# Preorder

The preorder of a node is the node, followed by the preorder of each of its
children in turn.  Traversals visit the nodes in this order and stop at the first
failure.  Attributes and declarations are not children and are not visited.

A branch of a sound arena is never deeper than the slot table, so the descent is
given one level for each slot and one more.  What lies below that is cut off.

`traverse` walks down node by node, so what comes after a failure is never looked
at.  `preorder` is the list of all identities on the way.  The two belong together
by `traverse_eq_forM_preorder`, and `descendants` by `descendants_eq_mapM_preorder`.
-/

namespace XmlTree.Arena

/-! ## The list -/

/-- The preorder of `id`, at most `fuel` levels deep. -/
def preorderWithin (a : Arena) : (fuel : Nat) → NodeId → List NodeId
  | 0, _ => []
  | fuel + 1, id => id :: (a.childrenAt id).flatMap (a.preorderWithin fuel)

/-- The identities of a node and of all nodes below it, in preorder.  An identity
that no slot holds stands for itself. -/
def preorder (a : Arena) (id : NodeId) : List NodeId := a.preorderWithin (a.slots.size + 1) id

/-! ## The walk -/

section Walk

variable {σ : Type}

/-- Shows the node in the slot of `id` to a visitor.  An empty slot is a failure. -/
def showAt (a : Arena) (visit : Node → EStateM TreeError σ Unit) (id : NodeId) :
    EStateM TreeError σ Unit :=
  match a.find? id with
  | some node => visit node
  | none => throw (.notFound id)

/-- Shows the nodes from `id` downwards to a visitor, at most `fuel` levels deep. -/
def traverseWithin (a : Arena) (visit : Node → EStateM TreeError σ Unit) :
    (fuel : Nat) → NodeId → EStateM TreeError σ Unit
  | 0, _ => pure ()
  | fuel + 1, id => do
      a.showAt visit id
      forM (a.childrenAt id) (a.traverseWithin visit fuel)

/-- Shows the nodes from `start` downwards to a visitor, in preorder.  The first
failure ends the traversal, be it the visitor's or a child that is missing. -/
def traverse (a : Arena) (start : NodeId) (visit : Node → EStateM TreeError σ Unit) :
    EStateM TreeError σ Unit :=
  a.traverseWithin visit (a.slots.size + 1) start

theorem forM_flatMap {α β : Type} (xs : List α) (f : α → List β)
    (act : β → EStateM TreeError σ Unit) :
    forM (xs.flatMap f) act = forM xs fun x => forM (f x) act := by
  induction xs with
  | nil => rfl
  | cons x xs ih => rw [List.flatMap_cons, List.forM_append, List.forM_cons, ih]

theorem traverseWithin_eq_forM (a : Arena) (visit : Node → EStateM TreeError σ Unit)
    (fuel : Nat) (id : NodeId) :
    a.traverseWithin visit fuel id = forM (a.preorderWithin fuel id) (a.showAt visit) := by
  induction fuel generalizing id with
  | zero => rfl
  | succ fuel ih =>
    simp only [traverseWithin, preorderWithin, List.forM_cons, forM_flatMap, funext ih]

/-- A traversal shows the nodes of the preorder one after the other. -/
theorem traverse_eq_forM_preorder (a : Arena) (start : NodeId)
    (visit : Node → EStateM TreeError σ Unit) :
    a.traverse start visit = forM (a.preorder start) (a.showAt visit) :=
  a.traverseWithin_eq_forM visit _ start

end Walk

/-! ## Descendants -/

/-- Notes the identity recorded in a node, the latest first. -/
def note (node : Node) : EStateM TreeError (List NodeId) Unit := modify (node.id :: ·)

/-- What a run of `note` has noted, the earliest first. -/
def noted (run : EStateM TreeError (List NodeId) Unit) (before : List NodeId) :
    Except TreeError (List NodeId) :=
  match run before with
  | .ok _ after => .ok after.reverse
  | .error e _ => .error e

/-- The identities recorded in a node and in the nodes below it, in preorder. -/
def descendants (a : Arena) (start : NodeId) : Except TreeError (List NodeId) :=
  noted (a.traverse start note) []

theorem noted_forM (a : Arena) (ids before : List NodeId) :
    noted (forM ids (a.showAt note)) before
      = (before.reverse ++ ·) <$> ids.mapM fun id => Node.id <$> a.get id := by
  induction ids generalizing before with
  | nil => exact congrArg Except.ok (List.append_nil _).symm
  | cons id ids ih =>
    rw [List.forM_cons, List.mapM_cons]
    cases h : a.find? id with
    | none =>
      have failing : a.showAt note id = throw (.notFound id) := by rw [showAt, h]
      have missing : a.get id = .error (.notFound id) := by rw [get, h]
      rw [failing, missing]
      rfl
    | some node =>
      have noting : a.showAt note id = note node := by rw [showAt, h]
      have found : a.get id = .ok node := by rw [get, h]
      have step : noted (do note node; forM ids (a.showAt note)) before
          = noted (forM ids (a.showAt note)) (node.id :: before) := rfl
      rw [noting, found, step, ih, List.reverse_cons]
      generalize ids.mapM (fun id => Node.id <$> a.get id) = below
      cases below with
      | error e => rfl
      | ok below => exact congrArg Except.ok (List.append_cons _ _ _).symm

/-- The descendants are the preorder with each node's own identity. -/
theorem descendants_eq_mapM_preorder (a : Arena) (start : NodeId) :
    a.descendants start = (a.preorder start).mapM fun id => Node.id <$> a.get id := by
  rw [descendants, traverse_eq_forM_preorder, noted_forM]
  simp

/-! ## Height -/

/-- The number of child steps from `id` down to its deepest descendant, at most
`fuel` levels deep.  Of several missing descendants the last one is reported. -/
def heightWithin (a : Arena) : (fuel : Nat) → NodeId → Except TreeError Nat
  | 0, _ => .ok 0
  | fuel + 1, id => do
      let children ← a.children id
      let heights ← children.reverse.mapM (a.heightWithin fuel)
      return heights.foldl (fun height below => max height (below + 1)) 0

/-- The number of child steps from a node down to its deepest descendant. -/
def height (a : Arena) (id : NodeId) : Except TreeError Nat :=
  a.heightWithin (a.slots.size + 1) id

end XmlTree.Arena
