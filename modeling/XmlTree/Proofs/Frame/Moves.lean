import Mathlib.Data.List.Pairwise
import XmlTree.Proofs.Frame.Shifts
import XmlTree.Proofs.Order.Siblings
import XmlTree.Proofs.Order.Ways
import XmlTree.Proofs.Reachable

/-!
# Moves

A command that moves a child disturbs nothing else (`Reachable.undisturbed`).  The same
nodes lie below the child after the move.  What does not lie there keeps its root, its
ancestors, its base address and its bindings.  And any two nodes below the child keep
their order, as do any two that are not.

A move is a shift (`Command.shifts`), so what is left to prove is about the order.
Siblings other than the child keep their order, since the lists without the child are the
same and the ranks go up along them in both arenas (`Shifts.rankAlike`).  Two nodes are
compared along ways down from one node.  When both lie below the child that is the child
itself, and when neither does it is a root.  In both cases the child is on neither way
(`Shifts.compareSteps_eq`).
-/

namespace XmlTree

open Relation (ReflTransGen)

namespace Arena

variable {a a' : Arena} {child owner top x y : NodeId} {steps xs ys : List NodeId}
variable {config : Config}

/-! ## Ways -/

/-- Listing and owning reach the same nodes. -/
theorem Consistent.holds_iff (h : a.Consistent) : a.Holds owner x ↔ a.Owns owner x :=
  ⟨fun ⟨_, listed⟩ => (h.lists_iff.1 listed).1, fun owned => (h.settled x).owned owned⟩

theorem Consistent.reaches_iff (h : a.Consistent) :
    ReflTransGen a.Holds owner x ↔ ReflTransGen a.Owns owner x := by
  have same : a.Holds = a.Owns := funext fun owner => funext fun x => propext h.holds_iff
  rw [same]

/-- The same one of two siblings comes first in both arenas. -/
def RankAlike (a a' : Arena) (owner x y : NodeId) : Prop :=
  (a.RanksBefore owner x y ∧ a'.RanksBefore owner x y) ∨
    (a.RanksBefore owner y x ∧ a'.RanksBefore owner y x)

instance : Std.Symm (RankAlike a a' owner) := ⟨fun _ _ => Or.symm⟩

namespace Shifts

/-! ## Siblings -/

theorem shelfAt (h : Shifts child a a') {κ : Type} (shelf : Shelf κ)
    (bare : ∀ data : ElementData, shelf.view { data with children := [] } = shelf.view data)
    (p : NodeId) : a'.shelfAt shelf p = a.shelfAt shelf p := by
  have views : ∀ b : Arena, (b.element? p).map shelf.view
      = ((b.find? p).map Node.bare).bind fun node => node.element?.map shelf.view := by
    intro b
    rw [element?, Option.map_bind, Option.bind_map]
    congr 1
    funext node
    show node.element?.map shelf.view = node.bare.element?.map shelf.view
    rw [Node.element?_bare, Option.map_map]
    exact congrArg (node.element?.map ·) (funext fun data => (bare data).symm)
  rw [Arena.shelfAt, Arena.shelfAt, views, views, h.nodes]

/-- Without the child the same nodes are listed in the same order. -/
theorem below (h : Shifts child a a') (p : NodeId) :
    (a'.below p).filter (· ≠ child) = (a.below p).filter (· ≠ child) := by
  have declarations := h.shelfAt .declarations (fun _ => rfl) p
  have attributes := h.shelfAt .attributes (fun _ => rfl) p
  rw [Arena.below, Arena.below, declarations, attributes, List.filter_append, h.siblings,
    ← List.filter_append]

/-- Siblings other than the child stay in order. -/
theorem rankAlike (h : Shifts child a a') (consistent : a.Consistent)
    (consistent' : a'.Consistent) (otherX : x ≠ child) (otherY : y ≠ child) (apart : x ≠ y)
    (ownedX : a.Owns owner x) (ownedY : a.Owns owner y) : RankAlike a a' owner x y := by
  have up := (consistent.pairwise_below owner).filter (· ≠ child)
  have up' := (consistent'.pairwise_below owner).filter (· ≠ child)
  rw [h.below owner] at up'
  have alike : ((a.below owner).filter (· ≠ child)).Pairwise (RankAlike a a' owner) :=
    (up.and up').imp Or.inl
  have listed : ∀ {z}, z ≠ child → a.Owns owner z → z ∈ (a.below owner).filter (· ≠ child) :=
    fun other owned => List.mem_filter.2 ⟨consistent.mem_below_iff.2 owned, decide_eq_true other⟩
  exact alike.forall (listed otherX ownedX) (listed otherY ownedY) apart

/-- Ways that do not lead over the child are compared alike. -/
theorem compareSteps_eq (h : Shifts child a a') (consistent : a.Consistent)
    (consistent' : a'.Consistent) (wayX : a.WayDown top xs x) (wayY : a.WayDown top ys y)
    (offX : child ∉ xs) (offY : child ∉ ys) :
    a'.compareSteps top xs ys = a.compareSteps top xs ys := by
  induction wayX generalizing ys with
  | here top => cases ys <;> rfl
  | @down top nextX bottom restX ownedX wayX ih =>
    cases wayY with
    | here => rfl
    | @down _ nextY _ restY ownedY wayY =>
      rw [List.mem_cons, not_or] at offX offY
      by_cases same : nextX = nextY
      · subst same
        rw [compareSteps_cons_self, compareSteps_cons_self]
        exact ih wayY offX.2 offY.2
      · rcases h.rankAlike consistent consistent' (Ne.symm offX.1) (Ne.symm offY.1) same
          ownedX ownedY with ⟨before, before'⟩ | ⟨after, after'⟩
        · rw [compareSteps_of_ranksBefore before, compareSteps_of_ranksBefore before']
        · rw [compareSteps_swap (compareSteps_of_ranksBefore after),
            compareSteps_swap (compareSteps_of_ranksBefore after')]

/-! ## Below the child -/

theorem wayDown (h : Shifts child a a') (way : a.WayDown top steps x) (off : child ∉ steps) :
    a'.WayDown top steps x :=
  way.congr fun y member => h.owners y fun same => off (same ▸ member)

theorem reaches (h : Shifts child a a') (founded : a.Founded)
    (path : ReflTransGen a.Owns child x) : ReflTransGen a'.Owns child x := by
  obtain ⟨steps, way⟩ := exists_wayDown_of_reaches path
  exact (h.wayDown way (way.top_not_mem founded)).reaches

/-- The child has the same nodes below it. -/
theorem reaches_iff (h : Shifts child a a') (founded : a.Founded) (founded' : a'.Founded) :
    ReflTransGen a'.Owns child x ↔ ReflTransGen a.Owns child x :=
  ⟨h.symm.reaches founded', h.reaches founded⟩

theorem compareOrder_inside (h : Shifts child a a') (sound : a.Sound) (sound' : a'.Sound)
    (liveX : a.contains x = true) (insideX : ReflTransGen a.Owns child x)
    (insideY : ReflTransGen a.Owns child y) (apart : x ≠ y) :
    a'.compareOrder x y = a.compareOrder x y := by
  obtain ⟨xs, wayX⟩ := exists_wayDown_of_reaches insideX
  obtain ⟨ys, wayY⟩ := exists_wayDown_of_reaches insideY
  have offX := wayX.top_not_mem sound.founded
  have offY := wayY.top_not_mem sound.founded
  have live := sound.contains_top_of_wayDown liveX wayX
  obtain ⟨w, way⟩ := sound.exists_descent live
  obtain ⟨w', way'⟩ := sound'.exists_descent ((h.contains child).trans live)
  rw [compareOrder_eq_compareSteps sound.founded apart way wayX wayY,
    compareOrder_eq_compareSteps sound'.founded apart way' (h.wayDown wayX offX)
      (h.wayDown wayY offY),
    h.compareSteps_eq sound.toConsistent sound'.toConsistent wayX wayY offX offY]

/-! ## Outside -/

/-- The number of a document does not depend on owner and children. -/
theorem documentIndex_eq {node node' : Node} (same : node'.bare = node.bare) :
    node'.document?.map DocumentData.index = node.document?.map DocumentData.index := by
  have bares : ∀ node : Node, node.document?.map DocumentData.index
      = node.bare.document?.map DocumentData.index := by
    intro node
    rw [Node.document?_bare, Option.map_map]
    rfl
  rw [bares, same, ← bares]

theorem compareTrees_eq (v w : Descent) : compareTrees v w
    = (v.node.document?.map DocumentData.index).bind fun i =>
        (w.node.document?.map DocumentData.index).map fun j =>
          (compare i j).then (compare v.root.index w.root.index) := by
  rw [compareTrees]
  cases v.node.document? with
  | none => rfl
  | some d => cases w.node.document? <;> rfl

/-- A live node that is not below the child has the same way down from the same root. -/
theorem exists_descents (h : Shifts child a a') (sound : a.Sound) (sound' : a'.Sound)
    (live : a.contains x = true) (outside : ¬ ReflTransGen a.Owns child x) :
    ∃ top steps node node', a.WayDown top steps x ∧ child ∉ steps ∧ node'.bare = node.bare ∧
      a.descent x = .ok ⟨top, node, steps⟩ ∧ a'.descent x = .ok ⟨top, node', steps⟩ := by
  obtain ⟨top, node, steps, found, unowned, way⟩ := sound.exists_wayDown live
  have off : child ∉ steps := fun member => outside (way.above_end member)
  have apart : top ≠ child := fun same => outside (same ▸ way.reaches)
  obtain ⟨node', found', same⟩ := h.exists_find? found
  have unowned' : node'.parent = none := by
    rw [← owner?_of_find? found', h.owners top apart, owner?_of_find? found, unowned]
  have descent := descent_of_wayDown sound.founded (descent_of_top found unowned) way
  have descent' := descent_of_wayDown sound'.founded (descent_of_top found' unowned')
    (h.wayDown way off)
  exact ⟨top, steps, node, node', way, off, same, descent, descent'⟩

theorem compareOrder_outside (h : Shifts child a a') (sound : a.Sound) (sound' : a'.Sound)
    (liveX : a.contains x = true) (liveY : a.contains y = true)
    (outsideX : ¬ ReflTransGen a.Owns child x) (outsideY : ¬ ReflTransGen a.Owns child y)
    (apart : x ≠ y) : a'.compareOrder x y = a.compareOrder x y := by
  obtain ⟨topX, xs, nodeX, nodeX', wayX, offX, sameX, descentX, descentX'⟩ :=
    h.exists_descents sound sound' liveX outsideX
  obtain ⟨topY, ys, nodeY, nodeY', wayY, offY, sameY, descentY, descentY'⟩ :=
    h.exists_descents sound sound' liveY outsideY
  rw [compareOrder_of_descent apart descentX descentY,
    compareOrder_of_descent apart descentX' descentY']
  by_cases same : topX = topY
  · subst same
    rw [compareWays, compareWays, if_pos rfl, if_pos rfl,
      h.compareSteps_eq sound.toConsistent sound'.toConsistent wayX wayY offX offY]
  · rw [compareWays_of_root_ne same, compareWays_of_root_ne same, compareTrees_eq,
      compareTrees_eq, documentIndex_eq sameX, documentIndex_eq sameY]

/-- Two nodes on one side of the child's tree are ordered as before. -/
theorem compareOrder_eq (h : Shifts child a a') (sound : a.Sound) (sound' : a'.Sound)
    (liveX : a.contains x = true) (liveY : a.contains y = true)
    (side : ReflTransGen a.Owns child x ↔ ReflTransGen a.Owns child y) :
    a'.compareOrder x y = a.compareOrder x y := by
  by_cases same : x = y
  · subst same
    rw [compareOrder_self.2 ⟨rfl, liveX⟩, compareOrder_self.2 ⟨rfl, (h.contains x).trans liveX⟩]
  · by_cases inside : ReflTransGen a.Owns child x
    · exact h.compareOrder_inside sound sound' liveX inside (side.1 inside) same
    · exact h.compareOrder_outside sound sound' liveX liveY inside
        (fun below => inside (side.2 below)) same

end Shifts

/-! ## What a move leaves -/

/-- What stays as it is when one child is moved. -/
structure Undisturbed (child : NodeId) (a a' : Arena) : Prop where
  /-- The same nodes are live. -/
  live : ∀ x, a'.contains x = a.contains x
  /-- The child has the same nodes below it. -/
  below : ∀ x, ReflTransGen a'.Holds child x ↔ ReflTransGen a.Holds child x
  /-- The order of two live nodes that are both below the child, or both not. -/
  order : ∀ x y, a.contains x = true → a.contains y = true →
    (ReflTransGen a.Holds child x ↔ ReflTransGen a.Holds child y) →
      a'.compareOrder x y = a.compareOrder x y
  /-- The root of what is not below the child. -/
  root : ∀ x, ¬ ReflTransGen a.Holds child x → a'.root x = a.root x
  /-- The owners above what is not below the child. -/
  ancestors : ∀ x, ¬ ReflTransGen a.Holds child x → a'.ancestors x = a.ancestors x
  /-- The base address of what is not below the child, however addresses are resolved. -/
  baseUriWith : ∀ (r : Resolver) (x : NodeId), ¬ ReflTransGen a.Holds child x →
    a'.baseUriWith r x = a.baseUriWith r x
  /-- The bindings in scope at what is not below the child, and their order. -/
  inScope : ∀ x, ¬ ReflTransGen a.Holds child x → a'.inScope x = a.inScope x

theorem Shifts.undisturbed_of_sound (h : Shifts child a a') (sound : a.Sound) (sound' : a'.Sound) :
    Undisturbed child a a' := by
  have alike : ∀ x, ¬ ReflTransGen a.Holds child x → (a.lineage x).Alike (a'.lineage x) := by
    intro x outside
    rw [sound.toConsistent.reaches_iff] at outside
    exact h.lineage_alike sound.founded sound'.founded outside
  refine ⟨h.contains, ?below, ?order, ?root, ?ancestors, ?baseUriWith, ?inScope⟩
  case below =>
    intro x
    rw [sound.toConsistent.reaches_iff, sound'.toConsistent.reaches_iff]
    exact h.reaches_iff sound.founded sound'.founded
  case order =>
    intro x y liveX liveY side
    rw [sound.toConsistent.reaches_iff, sound.toConsistent.reaches_iff] at side
    exact h.compareOrder_eq sound sound' liveX liveY side
  case root => exact fun x outside => (alike x outside).root
  case ancestors => exact fun x outside => (alike x outside).ancestors
  case baseUriWith => exact fun r x outside => h.baseAlong (alike x outside) r []
  case inScope =>
    intro x outside
    rw [inScope, inScope, h.discard_element, h.bindLineage (alike x outside)]

/-! ## Moving edits -/

/-- A child that has been checked shifts to its new place. -/
theorem shifts_move (h : a.Consistent) {place : List NodeId → List NodeId}
    (checked : a.checkInsertable owner child = .ok ())
    (adds : ∀ ids, (place ids).filter (· ≠ child) = ids.filter (· ≠ child)) :
    Shifts child a ((a.unlink child).link owner child place) := by
  obtain ⟨container, placed, _⟩ := checkInsertable_eq_ok_iff.1 checked
  have relinks := relinks_unlink h child
  have live := (relinks.contains child).trans (contains_of_place? placed)
  exact (shifts_unlink h child).trans (shifts_link (relinks.isContainer container) live adds)

end Arena

namespace Edit

open Arena

variable {α β : Type} {a a' : Arena} {parent child reference : NodeId}

theorem shifts_appendChild (h : a.Consistent) (ok : appendChild parent child a = .ok () a') :
    Shifts child a a' := by
  obtain ⟨checked, rfl⟩ := checked_of_appendChild h ok
  exact shifts_move h checked fun ids => filter_append_singleton_ne ids child

theorem shifts_insertBefore (h : a.Consistent)
    (ok : insertBefore parent child reference a = .ok () a') : Shifts child a a' := by
  obtain ⟨_, ⟨_, rfl⟩ | ⟨_, checked, rfl⟩⟩ := checked_of_insertBefore h ok
  · exact .refl child a'
  · exact shifts_move h checked fun ids => filter_insertIdx_ne ids _ child

theorem shifts_removeChild (h : a.Consistent) (ok : removeChild parent child a = .ok () a') :
    Shifts child a a' := by
  obtain ⟨placed, _, rfl⟩ := placed_of_removeChild h ok
  exact shifts_unlink h child

end Edit

namespace Command

/-- The child that a command moves or removes. -/
def movedChild? : Command → Option NodeId
  | appendChild _ child | insertBefore _ child _ | removeChild _ child => some child
  | _ => none

/-- A move that succeeds is a shift. -/
theorem shifts {a : Arena} (h : a.Consistent) (documentNumber : Nat) {command : Command}
    {child : NodeId} {reply : Reply} (moves : command.movedChild? = some child)
    (succeeds : ((command.edit documentNumber).outcome a).1 = .ok reply) :
    Arena.Shifts child a ((command.edit documentNumber).outcome a).2 := by
  have ok := Edit.run_of_outcome succeeds
  cases command with
  | appendChild parent child =>
    cases moves
    obtain ⟨_, ok, _⟩ := Edit.map_run_eq_ok_iff.1 ok
    exact Edit.shifts_appendChild h ok
  | insertBefore parent child reference =>
    cases moves
    obtain ⟨_, ok, _⟩ := Edit.map_run_eq_ok_iff.1 ok
    exact Edit.shifts_insertBefore h ok
  | removeChild parent child =>
    cases moves
    obtain ⟨_, ok, _⟩ := Edit.map_run_eq_ok_iff.1 ok
    exact Edit.shifts_removeChild h ok
  | _ => cases moves

end Command

namespace Arena

variable {a : Arena} {config : Config}

/-- A move that succeeds in a reachable arena disturbs nothing but the place of the child. -/
theorem Reachable.undisturbed (reachable : Reachable config a) (documentNumber : Nat)
    {command : Command} {child : NodeId} {reply : Reply}
    (moves : command.movedChild? = some child)
    (succeeds : ((command.edit documentNumber).outcome a).1 = .ok reply) :
    Undisturbed child a ((command.edit documentNumber).outcome a).2 :=
  (command.shifts reachable.sound.toConsistent documentNumber moves succeeds).undisturbed_of_sound
    reachable.sound (reachable.sound.command documentNumber command)

/-- An element with a child and an attribute moves back among its siblings. -/
theorem undisturbed_of_siblings :
    let session := (Session.start {}).runAll [.createDocument none, .createElement none "r",
      .appendChild ⟨1⟩ ⟨2⟩, .createElement none "a", .createElement none "b", .createText "t",
      .appendChild ⟨2⟩ ⟨3⟩, .appendChild ⟨2⟩ ⟨4⟩, .appendChild ⟨4⟩ ⟨5⟩,
      .addAttribute ⟨4⟩ none "k" "k" "v"]
    let command := Command.insertBefore ⟨2⟩ ⟨4⟩ ⟨3⟩
    ((command.edit 2).outcome session.arena).1 = .ok .done ∧
      Undisturbed ⟨4⟩ session.arena ((command.edit 2).outcome session.arena).2 :=
  have succeeds := by decide +kernel
  ⟨succeeds, Reachable.undisturbed (Reachable.runAll (s := .start {}) .empty _) 2 rfl succeeds⟩

end Arena

end XmlTree
