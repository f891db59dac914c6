import XmlTree.Proofs.Changes
import XmlTree.Proofs.Order.Laws

/-!
# Ways down

A way down leads from a node to one below it, owner by owner.  In a sound arena the
descent to a node is the descent to any node above it, followed by the way down from
there (`descent_of_wayDown`), and every live node has a way down to it from a node
without an owner (`Sound.exists_wayDown`).
-/

namespace XmlTree.Arena

open Relation (ReflTransGen TransGen)

variable {a a' : Arena} {owner top x y : NodeId} {steps : List NodeId} {w : Descent} {node : Node}

/-- A way down from one node to another, given by the nodes below the first. -/
inductive WayDown (a : Arena) : NodeId → List NodeId → NodeId → Prop
  /-- A node is reached from itself without a step. -/
  | here (top : NodeId) : WayDown a top [] top
  /-- The first step leads to a node that the top owns. -/
  | down {top next bottom : NodeId} {steps : List NodeId} (owned : a.Owns top next)
      (way : WayDown a next steps bottom) : WayDown a top (next :: steps) bottom

theorem WayDown.append {more : List NodeId} (way : a.WayDown top steps x)
    (further : a.WayDown x more y) : a.WayDown top (steps ++ more) y := by
  induction way with
  | here top => exact further
  | down first _ ih => exact .down first (ih further)

theorem WayDown.snoc (way : a.WayDown top steps x) (owned : a.Owns x y) :
    a.WayDown top (steps ++ [y]) y :=
  way.append (.down owned (.here y))

/-- A way ends where it starts or with its last step. -/
theorem WayDown.end_mem (way : a.WayDown top steps x) : x ∈ top :: steps := by
  induction way with
  | here top => exact List.mem_cons_self
  | down _ _ ih => exact .tail _ ih

theorem WayDown.reaches (way : a.WayDown top steps x) : ReflTransGen a.Owns top x := by
  induction way with
  | here top => exact .refl
  | down owned _ ih => exact .head owned ih

theorem exists_wayDown_of_reaches (path : ReflTransGen a.Owns top x) :
    ∃ steps, a.WayDown top steps x := by
  induction path with
  | refl => exact ⟨[], .here top⟩
  | tail _ owned ih =>
    obtain ⟨steps, way⟩ := ih
    exact ⟨_, way.snoc owned⟩

/-- The last step of a way leads to its end. -/
theorem WayDown.exists_snoc (way : a.WayDown top (y :: steps) x) : ∃ owner before,
    y :: steps = before ++ [x] ∧ a.WayDown top before owner ∧ a.Owns owner x := by
  generalize taken : y :: steps = path at way ⊢
  induction way generalizing y steps with
  | here top => cases taken
  | @down top next bottom rest owned way ih =>
    cases way with
    | here next => exact ⟨top, [], rfl, .here top, owned⟩
    | down owned' way =>
      obtain ⟨owner, before, same, upper, owns⟩ := ih rfl
      exact ⟨owner, next :: before, by rw [same, List.cons_append], .down owned upper, owns⟩

/-- A way is a way in another arena where the nodes on it have the same owners. -/
theorem WayDown.congr (way : a.WayDown top steps x)
    (kept : ∀ y ∈ steps, a'.owner? y = a.owner? y) : a'.WayDown top steps x := by
  induction way with
  | here top => exact .here top
  | down owned _ ih =>
    exact .down ((kept _ List.mem_cons_self).trans owned) (ih fun y later => kept y (.tail _ later))

/-- A way can be taken apart at every node on it. -/
theorem WayDown.split (way : a.WayDown top steps x) (member : y ∈ steps) : ∃ owner before after,
    steps = before ++ y :: after ∧ a.WayDown top before owner ∧ a.Owns owner y ∧
      a.WayDown y after x := by
  induction way with
  | here top => cases member
  | @down top next bottom rest owned way ih =>
    rcases List.mem_cons.1 member with rfl | later
    · exact ⟨top, [], rest, rfl, .here top, owned, way⟩
    · obtain ⟨owner, before, after, rfl, upper, owns, lower⟩ := ih later
      exact ⟨owner, next :: before, after, rfl, .down owned upper, owns, lower⟩

/-- Every node on a way lies below its start. -/
theorem WayDown.below_top (way : a.WayDown top steps x) (member : y ∈ steps) :
    TransGen a.Owns top y := by
  obtain ⟨owner, _, _, _, upper, owns, _⟩ := way.split member
  exact .tail' upper.reaches owns

/-- Every node on a way lies above its end or is the end. -/
theorem WayDown.above_end (way : a.WayDown top steps x) (member : y ∈ steps) :
    ReflTransGen a.Owns y x := by
  obtain ⟨_, _, _, _, _, _, lower⟩ := way.split member
  exact lower.reaches

/-- No way leads back to its start. -/
theorem WayDown.top_not_mem (founded : a.Founded) (way : a.WayDown top steps x) : top ∉ steps :=
  fun member => founded.transGen.irrefl.irrefl top (way.below_top member)

/-- What a way leads down from is live if its end is. -/
theorem Consistent.contains_top_of_wayDown (h : a.Consistent) (live : a.contains x = true)
    (way : a.WayDown top steps x) : a.contains top = true := by
  cases way with
  | here top => exact live
  | down owned _ => exact contains_iff.2 (h.exists_find?_owner owned)

/-! ## Descents -/

theorem descentOnto_eq (below : List NodeId) (lineage : Lineage) :
    descentOnto below lineage =
      (fun way : Descent => { way with steps := way.steps ++ below }) <$>
        descentOnto [] lineage := by
  induction lineage generalizing below with
  | top id node => rfl
  | missing id => rfl
  | step id node above ih =>
    rw [descentOnto, descentOnto, ih (id :: below), ih [id]]
    cases descentOnto [] above with
    | error e => rfl
    | ok way => simp [Functor.map, Except.map]

theorem descent_of_top (found : a.find? x = some node) (unowned : node.parent = none) :
    a.descent x = .ok ⟨x, node, []⟩ := by
  rw [descent, lineage_of_top found unowned, descentOnto]

/-- The descent goes on to the nodes that a node owns. -/
theorem descent_of_owns (founded : a.Founded) (way : a.descent x = .ok w) (owned : a.Owns x y) :
    a.descent y = .ok { w with steps := w.steps ++ [y] } := by
  obtain ⟨node, found, parent⟩ := exists_find?_of_owner? owned
  rw [descent, lineage_of_owner founded found parent, descentOnto, descentOnto_eq, ← descent, way]
  rfl

theorem descent_of_wayDown (founded : a.Founded) (way : a.descent top = .ok w)
    (down : a.WayDown top steps x) : a.descent x = .ok { w with steps := w.steps ++ steps } := by
  induction down generalizing w with
  | here top => rw [List.append_nil]; exact way
  | down owned _ ih =>
    rw [ih (descent_of_owns founded way owned)]
    simp

/-- The steps of a descent are a way down. -/
theorem wayDown_of_descent (founded : a.Founded) (way : a.descent x = .ok w) :
    a.WayDown w.root w.steps x := by
  induction x using founded.induction generalizing w with
  | _ x ih =>
    cases found : a.find? x with
    | none =>
      rw [descent, lineage_of_missing found] at way
      cases way
    | some node =>
      cases owned : node.parent with
      | none =>
        rw [descent_of_top found owned] at way
        cases way
        exact .here x
      | some owner =>
        have owns : a.Owns owner x := (owner?_of_find? found).trans owned
        rw [descent, lineage_of_owner founded found owned, descentOnto, descentOnto_eq] at way
        obtain ⟨upper, upperWay, rfl⟩ := map_eq_ok_iff.1 way
        exact (ih owner owns upperWay).snoc owns

/-- Every live node lies at or below a node without an owner. -/
theorem Sound.exists_wayDown (h : a.Sound) (live : a.contains x = true) : ∃ top node steps,
    a.find? top = some node ∧ node.parent = none ∧ a.WayDown top steps x := by
  induction x using h.founded.induction with
  | _ x ih =>
    obtain ⟨node, found⟩ := contains_iff.1 live
    cases owned : node.parent with
    | none => exact ⟨x, node, [], found, owned, .here x⟩
    | some owner =>
      have owns : a.Owns owner x := (owner?_of_find? found).trans owned
      have ownerLive := contains_iff.2 (h.exists_find?_owner owns)
      obtain ⟨top, topNode, steps, foundTop, unowned, way⟩ := ih owner owns ownerLive
      exact ⟨top, topNode, steps ++ [x], foundTop, unowned, way.snoc owns⟩

/-! ## Roots -/

theorem summit_eq_of_descentOnto (below : List NodeId) (lineage : Lineage) :
    (fun w : Descent => (⟨w.root, w.node, w.steps.length⟩ : Lineage.Summit)) <$>
        descentOnto below lineage
      = (fun summit => { summit with depth := summit.depth + below.length }) <$>
          lineage.summit := by
  induction lineage generalizing below with
  | top id node => simp [descentOnto, Lineage.summit]
  | missing id => rfl
  | step id node above ih =>
    rw [descentOnto, ih, Lineage.summit]
    cases above.summit with
    | error e => rfl
    | ok summit =>
      have depths : summit.depth + (id :: below).length = summit.depth + 1 + below.length := by
        rw [List.length_cons, Nat.add_comm below.length, Nat.add_assoc]
      exact congrArg
        (fun depth => Except.ok (⟨summit.root, summit.node, depth⟩ : Lineage.Summit)) depths

/-- The depth of a node is the length of the way down to it. -/
theorem summit_eq (a : Arena) (x : NodeId) : (a.lineage x).summit
    = (fun w : Descent => (⟨w.root, w.node, w.steps.length⟩ : Lineage.Summit)) <$> a.descent x := by
  rw [descent, summit_eq_of_descentOnto]
  exact (id_map _).symm

/-- The root is where the descent starts. -/
theorem root_eq (a : Arena) (x : NodeId) : a.root x = Descent.root <$> a.descent x := by
  rw [root, summit_eq]
  cases a.descent x <;> rfl

theorem root_of_descent (way : a.descent x = .ok w) : a.root x = .ok w.root := by
  rw [root_eq, way]
  rfl

theorem contains_of_root (known : a.root x = .ok top) : a.contains x = true := by
  cases found : a.find? x with
  | some node => exact contains_iff.2 ⟨node, found⟩
  | none =>
    rw [root, lineage_of_missing found] at known
    cases known

theorem Sound.exists_descent (h : a.Sound) (live : a.contains x = true) :
    ∃ w, a.descent x = .ok w := by
  obtain ⟨top, node, steps, found, unowned, way⟩ := h.exists_wayDown live
  exact ⟨_, descent_of_wayDown h.founded (descent_of_top found unowned) way⟩

/-! ## Parting ways -/

/-- Steps that two ways share do not matter. -/
theorem compareSteps_append_left (shared xs ys : List NodeId) :
    a.compareSteps owner (shared ++ xs) (shared ++ ys)
      = a.compareSteps (shared.getLastD owner) xs ys := by
  induction shared generalizing owner with
  | nil => rfl
  | cons z rest ih =>
    rw [List.cons_append, List.cons_append, compareSteps_cons_self, ih, List.getLastD_cons]

/-- Different nodes are compared by the ways that lead to them from the roots. -/
theorem compareOrder_of_descent {v w : Descent} (apart : x ≠ y) (wayX : a.descent x = .ok v)
    (wayY : a.descent y = .ok w) : a.compareOrder x y = a.compareWays v w := by
  rw [compareOrder, if_neg apart, wayX, wayY]
  rfl

/-- Different nodes are compared by the ways that lead to them from one node. -/
theorem compareOrder_eq_compareSteps {w : Descent} (founded : a.Founded) (apart : x ≠ y)
    (way : a.descent top = .ok w) (wayX : a.WayDown top xs x) (wayY : a.WayDown top ys y) :
    a.compareOrder x y = some <$> a.compareSteps top xs ys := by
  rw [compareOrder_of_descent apart (descent_of_wayDown founded way wayX)
      (descent_of_wayDown founded way wayY),
    compareWays, if_pos rfl, compareSteps_append_left, getLastD_steps way]

/-- Two ways down from one node settle the order of the nodes they lead to. -/
theorem compareOrder_of_wayDown {xs ys : List NodeId} (founded : a.Founded)
    (way : a.descent top = .ok w) (wayX : a.WayDown top xs x) (wayY : a.WayDown top ys y)
    (less : a.compareSteps top xs ys = .ok .lt) : a.compareOrder x y = .ok (some .lt) := by
  have descentX := descent_of_wayDown founded way wayX
  have descentY := descent_of_wayDown founded way wayY
  have steps : a.compareSteps w.root (w.steps ++ xs) (w.steps ++ ys) = .ok .lt := by
    rw [compareSteps_append_left, getLastD_steps way]
    exact less
  have apart : x ≠ y := by
    intro same
    subst same
    have same : w.steps ++ xs = w.steps ++ ys :=
      congrArg Descent.steps (Except.ok.inj (descentX.symm.trans descentY))
    rw [same] at steps
    have back := compareSteps_swap steps
    rw [steps] at back
    cases back
  rw [compareOrder_eq_compareSteps founded apart way wayX wayY, less]
  rfl

end XmlTree.Arena
