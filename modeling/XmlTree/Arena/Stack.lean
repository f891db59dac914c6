import XmlTree.Arena.Preorder

/-!
# Traversal by a stack

A traversal needs no recursion when it keeps the nodes that are still to be shown on a
stack.  Each round takes the top off the stack, shows it to the visitor, and puts its
children on the stack, the last one first.  So the first child comes to lie on top, and
what lies below a node is shown before its next sibling.

The rounds are counted, since the lists of an arena may lead in a circle.  In a sound arena
the rounds are those of `traverse` (`Sound.traverseRounds_eq`).
-/

namespace XmlTree.Arena

/-- Puts nodes on a stack one after the other.  The head of a stack is its top. -/
def pushAll (ids stack : List NodeId) : List NodeId :=
  ids.foldl (fun stack id => id :: stack) stack

/-- A number of rounds from a stack of nodes that are still to be shown.  The answer is the
stack that is left.  Rounds with an empty stack do nothing. -/
def traverseRounds {σ : Type} (a : Arena) (visit : Node → EStateM TreeError σ Unit) :
    (rounds : Nat) → (stack : List NodeId) → EStateM TreeError σ (List NodeId)
  | 0, stack => return stack
  | _ + 1, [] => return []
  | rounds + 1, id :: stack => do
      a.showAt visit id
      a.traverseRounds visit rounds (pushAll (a.childrenAt id).reverse stack)

end XmlTree.Arena
