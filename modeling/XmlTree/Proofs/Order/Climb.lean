import XmlTree.Arena.Climb
import XmlTree.Proofs.Order.Ways

/-!
# Climbing compares alike

The comparison by climbing and the comparison from the root give one answer
(`compareClimbing_eq`).  This needs only that chains of owners end.  The lists may say
what they like.

A climb takes back the steps of a way down (`climb_of_wayDown`).  Two ways of one length
that part below a node come together there and nowhere further down, since a node has one
owner (`WayDown.unique`).  So the climbs meet where the ways part (`meet_eq`).
-/

namespace XmlTree.Arena

variable {a : Arena} {owner top top' x y z : NodeId} {xs ys before after : List NodeId}
variable {w : Descent} {fuel : Nat}

/-! ## One climb -/

theorem requiredOwner_of_owns (owned : a.Owns owner x) : a.requiredOwner x = .ok owner := by
  obtain ⟨node, found, parent⟩ := exists_find?_of_owner? owned
  simp only [requiredOwner, Arena.parent, get_of_find? found, Bind.bind, Except.bind, Pure.pure,
    Except.pure, parent]

/-- The last step of a climb can be taken apart. -/
theorem climb_succ (a : Arena) (steps : Nat) (x : NodeId) :
    a.climb (steps + 1) x = a.climb steps x >>= a.requiredOwner := by
  induction steps generalizing x with
  | zero => simp [climb]
  | succ steps ih =>
    rw [climb, climb, bind_assoc]
    exact bind_congr ih

/-- A climb takes back the steps of a way down. -/
theorem climb_of_wayDown (way : a.WayDown top xs x) : a.climb xs.length x = .ok top := by
  induction way with
  | here top => rfl
  | down owned _ ih =>
    rw [List.length_cons, climb_succ, ih]
    exact requiredOwner_of_owns owned

/-! ## Two climbs -/

/-- Two ways of one length to one node are the same. -/
theorem WayDown.unique (way : a.WayDown top xs z) (way' : a.WayDown top' ys z)
    (lengths : xs.length = ys.length) : top = top' ∧ xs = ys := by
  induction way generalizing top' ys with
  | here top =>
    obtain rfl := List.length_eq_zero_iff.1 lengths.symm
    cases way'
    exact ⟨rfl, rfl⟩
  | down owned _ ih =>
    cases way' with
    | here => cases lengths
    | down owned' lower =>
      obtain ⟨rfl, rfl⟩ := ih lower (Nat.succ.inj lengths)
      exact ⟨Option.some.inj (owned.symm.trans owned'), rfl⟩

/-- A way from one node leads to one node. -/
theorem WayDown.end_unique (way : a.WayDown top xs x) (way' : a.WayDown top xs y) : x = y := by
  induction way with
  | here top =>
    cases way'
    rfl
  | down owned _ ih =>
    cases way' with
    | down owned' lower => exact ih lower

theorem WayDown.exists_mid (way : a.WayDown top (before ++ after) x) :
    ∃ mid, a.WayDown top before mid ∧ a.WayDown mid after x := by
  induction before generalizing top with
  | nil => exact ⟨top, .here top, way⟩
  | cons first rest ih =>
    cases way with
    | down owned lower =>
      obtain ⟨mid, upper, lower⟩ := ih lower
      exact ⟨mid, .down owned upper, lower⟩

theorem compareSteps_cons_of_ne (apart : x ≠ y) : a.compareSteps owner (x :: xs) (y :: ys) = do
    let rankX ← a.siblingRank owner x
    let rankY ← a.siblingRank owner y
    return rankX.compare rankY := by
  rw [compareSteps, if_neg apart]

/-- One step of two climbs. -/
theorem meet_succ_of_owns {ownerX ownerY : NodeId} (ownedX : a.Owns ownerX x)
    (ownedY : a.Owns ownerY y) : a.meet (fuel + 1) x y
      = if ownerX = ownerY then do
          let rankX ← a.siblingRank ownerX x
          let rankY ← a.siblingRank ownerY y
          return rankX.compare rankY
        else a.meet fuel ownerX ownerY := by
  rw [meet, requiredOwner_of_owns ownedX, requiredOwner_of_owns ownedY]
  rfl

/-- Climbs from below two different nodes of one owner meet at that owner. -/
theorem meet_of_apart {firstX firstY : NodeId} (apart : firstX ≠ firstY)
    (ownedX : a.Owns top firstX) (ownedY : a.Owns top firstY) (wayX : a.WayDown firstX xs x)
    (wayY : a.WayDown firstY ys y) (lengths : xs.length = ys.length) (room : xs.length < fuel) :
    a.meet fuel x y = a.compareSteps top (firstX :: xs) (firstY :: ys) := by
  rw [compareSteps_cons_of_ne apart]
  -- The climbs lose the last steps first.
  induction fuel generalizing xs ys x y with
  | zero => cases room
  | succ fuel ih =>
    cases xs with
    | nil =>
      obtain rfl := List.length_eq_zero_iff.1 lengths.symm
      cases wayX
      cases wayY
      rw [meet_succ_of_owns ownedX ownedY, if_pos rfl]
    | cons nextX restX =>
      cases ys with
      | nil => cases lengths
      | cons nextY restY =>
        obtain ⟨ownerX, beforeX, pathX, upperX, ownsX⟩ := wayX.exists_snoc
        obtain ⟨ownerY, beforeY, pathY, upperY, ownsY⟩ := wayY.exists_snoc
        have lengthX := congrArg List.length pathX
        have lengthY := congrArg List.length pathY
        simp only [List.length_cons, List.length_append, List.length_nil]
          at lengthX lengthY lengths room
        have lengths' : beforeX.length = beforeY.length := by omega
        have other : ownerX ≠ ownerY := by
          intro same
          subst same
          exact apart (upperX.unique upperY lengths').1
        rw [meet_succ_of_owns ownsX ownsY, if_neg other]
        exact ih upperX upperY lengths' (by omega)

/-- Climbs along two ways of one length meet where the ways part. -/
theorem meet_eq (wayX : a.WayDown top xs x) (wayY : a.WayDown top ys y) (apart : x ≠ y)
    (lengths : xs.length = ys.length) (room : xs.length ≤ fuel) :
    a.meet fuel x y = a.compareSteps top xs ys := by
  induction wayX generalizing ys with
  | here top =>
    obtain rfl := List.length_eq_zero_iff.1 lengths.symm
    cases wayY
    exact absurd rfl apart
  | @down top nextX bottom restX ownedX lowerX ih =>
    cases wayY with
    | here => cases lengths
    | @down _ nextY _ restY ownedY lowerY =>
      have rests : restX.length = restY.length := Nat.succ.inj lengths
      by_cases same : nextX = nextY
      · subst same
        rw [compareSteps_cons_self]
        exact ih lowerY apart rests (Nat.le_of_succ_le room)
      · exact meet_of_apart same ownedX ownedY lowerX lowerY rests room

/-! ## Levels -/

/-- Of two ways one of which goes on where the other ends, the shorter leads to what comes
first. -/
theorem compareSteps_of_take_eq
    (shared : xs.take (min xs.length ys.length) = ys.take (min xs.length ys.length)) :
    a.compareSteps owner xs ys = .ok (compare xs.length ys.length) := by
  induction xs generalizing owner ys with
  | nil => cases ys <;> rfl
  | cons x xs ih =>
    cases ys with
    | nil => rfl
    | cons y ys =>
      simp only [List.length_cons, Nat.succ_min_succ, List.take_succ_cons, List.cons.injEq]
        at shared
      obtain ⟨rfl, shared⟩ := shared
      rw [compareSteps_cons_self, ih shared]
      simp [Nat.compare_eq_ite_lt]

/-- Where two ways part on the same level, what follows does not matter. -/
theorem compareSteps_append_of_ne {xs' ys' : List NodeId} (lengths : xs.length = ys.length)
    (apart : xs ≠ ys) :
    a.compareSteps owner (xs ++ xs') (ys ++ ys') = a.compareSteps owner xs ys := by
  induction xs generalizing owner ys with
  | nil => exact absurd (List.length_eq_zero_iff.1 lengths.symm).symm apart
  | cons x xs ih =>
    cases ys with
    | nil => cases lengths
    | cons y ys =>
      rw [List.cons_append, List.cons_append]
      by_cases same : x = y
      · subst same
        rw [compareSteps_cons_self, compareSteps_cons_self]
        exact ih (Nat.succ.inj lengths) fun rest => apart (rest ▸ rfl)
      · rw [compareSteps_cons_of_ne same, compareSteps_cons_of_ne same]

theorem climbTogether_eq (wayX : a.WayDown top xs x) (wayY : a.WayDown top ys y) :
    a.climbTogether xs.length ys.length x y = a.compareSteps top xs ys := by
  have splitX := List.take_append_drop (min xs.length ys.length) xs
  have splitY := List.take_append_drop (min xs.length ys.length) ys
  obtain ⟨levelX, upperX, lowerX⟩ := (splitX ▸ wayX).exists_mid
  obtain ⟨levelY, upperY, lowerY⟩ := (splitY ▸ wayY).exists_mid
  have lengths : (xs.take (min xs.length ys.length)).length
      = (ys.take (min xs.length ys.length)).length := by simp
  have climbX := climb_of_wayDown lowerX
  have climbY := climb_of_wayDown lowerY
  rw [List.length_drop, show xs.length - min xs.length ys.length = xs.length - ys.length by omega]
    at climbX
  rw [List.length_drop, show ys.length - min xs.length ys.length = ys.length - xs.length by omega]
    at climbY
  rw [climbTogether]
  split
  next atTop =>
    have none : min xs.length ys.length = 0 := by omega
    exact (compareSteps_of_take_eq (by rw [none, List.take_zero, List.take_zero])).symm
  next below =>
    rw [climbX, climbY]
    show (if levelX = levelY then _ else _) = _
    split
    next same =>
      subst same
      exact (compareSteps_of_take_eq (upperX.unique upperY lengths).2).symm
    next apart =>
      have other : xs.take (min xs.length ys.length) ≠ ys.take (min xs.length ys.length) := by
        intro shared
        rw [shared] at upperX
        exact apart (upperX.end_unique upperY)
      rw [meet_eq upperX upperY apart lengths (by simp), ← compareSteps_append_of_ne lengths other,
        splitX, splitY]

/-! ## The comparison -/

/-- Where chains of owners end, climbing gives the document order. -/
theorem compareClimbing_eq (founded : a.Founded) (x y : NodeId) :
    a.compareClimbing x y = a.compareOrder x y := by
  rw [compareClimbing, compareOrder]
  split
  next same => rfl
  next apart =>
    rw [summit_eq, summit_eq]
    cases wayX : a.descent x with
    | error e => rfl
    | ok v =>
      cases wayY : a.descent y with
      | error e => rfl
      | ok w =>
        show (if v.root = w.root then _ else _) = if v.root = w.root then _ else _
        split
        next same =>
          have downX := wayDown_of_descent founded wayX
          have downY := wayDown_of_descent founded wayY
          rw [← same] at downY
          show (do return some (← a.climbTogether v.steps.length w.steps.length x y)) = _
          rw [climbTogether_eq downX downY]
        next other =>
          show (do
            let nodeX ← a.get v.root
            let nodeY ← a.get w.root
            return compareTrees ⟨v.root, nodeX, []⟩ ⟨w.root, nodeY, []⟩) = _
          rw [get_of_find? (find?_root wayX), get_of_find? (find?_root wayY)]
          rfl

end XmlTree.Arena
