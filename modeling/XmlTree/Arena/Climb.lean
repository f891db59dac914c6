import XmlTree.Arena.Order

/-!
# Comparison by climbing

The document order of two nodes can be found without the ways from the root.  Two climbs
measure how deep the nodes lie.  The deeper one is brought up to the level of the other,
and then both climb in step until their owners are the same.  The ranks below that owner
decide.  Where the two meet without a last step, one of the nodes lies above the other.

A climb counts on owners that the measuring found.  Should one be missing, it fails
(`TreeError.adrift`), and so does a pair of climbs that has used up all its steps.
-/

namespace XmlTree.Arena

/-- The owner that a climb goes on to. -/
def requiredOwner (a : Arena) (id : NodeId) : Except TreeError NodeId := do
  match ← a.parent id with
  | some owner => return owner
  | none => throw (.adrift id)

/-- The node a number of owners above `id`. -/
def climb (a : Arena) : (steps : Nat) → NodeId → Except TreeError NodeId
  | 0, id => return id
  | steps + 1, id => do a.climb steps (← a.requiredOwner id)

/-- The order of two different nodes of one level, at most `steps` below the place where
they meet. -/
def meet (a : Arena) : (steps : Nat) → (x y : NodeId) → Except TreeError Ordering
  | 0, x, _ => throw (.adrift x)
  | steps + 1, x, y => do
      let ownerX ← a.requiredOwner x
      let ownerY ← a.requiredOwner y
      if ownerX = ownerY then
        let rankX ← a.siblingRank ownerX x
        let rankY ← a.siblingRank ownerY y
        return rankX.compare rankY
      else a.meet steps ownerX ownerY

/-- The order of two different nodes of one tree, at the given depths. -/
def climbTogether (a : Arena) (depthX depthY : Nat) (x y : NodeId) :
    Except TreeError Ordering := do
  if depthX = 0 ∨ depthY = 0 then return compare depthX depthY
  let levelX ← a.climb (depthX - depthY) x
  let levelY ← a.climb (depthY - depthX) y
  if levelX = levelY then return compare depthX depthY
  else a.meet (min depthX depthY) levelX levelY

/-- The document order of two nodes, found by climbing. -/
def compareClimbing (a : Arena) (x y : NodeId) : Except TreeError (Option Ordering) := do
  if x = y then
    discard (a.get x)
    return some .eq
  let summitX ← (a.lineage x).summit
  let summitY ← (a.lineage y).summit
  if summitX.root = summitY.root then
    return some (← a.climbTogether summitX.depth summitY.depth x y)
  else
    let nodeX ← a.get summitX.root
    let nodeY ← a.get summitY.root
    return compareTrees ⟨summitX.root, nodeX, []⟩ ⟨summitY.root, nodeY, []⟩

end XmlTree.Arena
