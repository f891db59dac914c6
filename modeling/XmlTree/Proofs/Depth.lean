import XmlTree.Proofs.Order.Ways
import XmlTree.Proofs.Reachable

/-!
# Depth

A chain of owners has an end, and no child is further from it than the settings of the
arena allow (`Reachable.depthLaws`).

The bound is kept as one about ways down: no way down to a child has more steps than the
limit (`Shallow`).  Most steps of a command only take links between children away, and a
way that is left was there before (`Shallow.mono`).  A move adds one link.  A way over
that link is a way down to the parent, the link, and a way down inside the moved tree.
`Arena.checkInsertable` has measured both ends: the climb from the parent measures the
first part, and the height of the moved tree the last (`length_le_heightWithin`).
-/

namespace XmlTree.Arena

open Relation (ReflTransGen TransGen)

variable {a a' : Arena} {config : Config} {owner top x : NodeId} {steps : List NodeId}
variable {limit : Nat}

/-- No way down to a child has more steps than `limit`. -/
def Shallow (a : Arena) (limit : Nat) : Prop :=
  ∀ (top x : NodeId) (steps : List NodeId),
    a.WayDown top steps x → a.place? x = some .child → steps.length ≤ limit

/-! ## Ways through children -/

/-- Only children own anything, documents aside. -/
theorem Consistent.place?_of_owns (h : a.Consistent) (owned : a.Owns owner x) {y : NodeId}
    (owns : a.Owns x y) : a.place? x = some .child := by
  obtain ⟨place, placed⟩ := h.exists_place?_of_owner? owned
  cases place with
  | child => exact placed
  | attr name => exact absurd owns (h.not_owns_of_file Shelf.attributes_lawful placed)
  | declaration nsPrefix =>
    exact absurd owns (h.not_owns_of_file Shelf.declarations_lawful placed)

/-- A way down to a child leads through children. -/
theorem Consistent.place?_of_wayDown (h : a.Consistent) (way : a.WayDown top steps x)
    (placed : a.place? x = some .child) : ∀ y ∈ steps, a.place? y = some .child := by
  induction way with
  | here top => exact nofun
  | down owned way ih =>
    intro y member
    rcases List.mem_cons.1 member with rfl | later
    · cases way with
      | here top => exact placed
      | down owns _ => exact h.place?_of_owns owned owns
    · exact ih placed y later

/-- A tree stays shallow when every link to a child was there before. -/
theorem Shallow.mono (shallow : a.Shallow limit) (h' : a'.Consistent)
    (kept : ∀ x owner, a'.owner? x = some owner → a'.place? x = some .child →
      a.owner? x = some owner ∧ a.place? x = some .child) : a'.Shallow limit := by
  intro top x steps way placed
  have links : ∀ y ∈ steps, a.owner? y = a'.owner? y ∧ a.place? y = some .child := by
    intro y member
    obtain ⟨owner, _, _, _, _, owned, _⟩ := way.split member
    obtain ⟨owned', placed'⟩ := kept y owner owned (h'.place?_of_wayDown way placed y member)
    exact ⟨owned'.trans owned.symm, placed'⟩
  cases steps with
  | nil => exact Nat.zero_le limit
  | cons y rest =>
    obtain ⟨_, before, path, _⟩ := way.exists_snoc
    have member : x ∈ y :: rest := path ▸ List.mem_append_right before List.mem_cons_self
    exact shallow _ _ _ (way.congr fun y member => (links y member).1) (links x member).2

/-! ## Lengths -/

theorem length_ids_of_wayDown (founded : a.Founded) (way : a.WayDown top steps x) :
    (a.lineage x).ids.length = (a.lineage top).ids.length + steps.length := by
  induction way with
  | here top => rfl
  | down owned _ ih =>
    rw [ih, length_ids_of_owner founded owned, List.length_cons]
    omega

/-- A way has no more steps than there are slots. -/
theorem length_le_size (founded : a.Founded) (way : a.WayDown top steps x) :
    steps.length ≤ a.slots.size := by
  have whole := length_ids_of_wayDown founded way
  have bound := length_ids_lineage_le founded x
  have positive := length_ids_lineage_pos a top
  omega

/-- Every live node has a way down to it from its root, and the depth counts its steps. -/
theorem Sound.exists_root_wayDown (h : a.Sound) (live : a.contains x = true) : ∃ top node steps,
    a.find? top = some node ∧ node.parent = none ∧ a.WayDown top steps x ∧
      a.root x = .ok top ∧ a.depth x = .ok steps.length := by
  obtain ⟨top, node, steps, found, unowned, way⟩ := h.exists_wayDown live
  have descent := descent_of_wayDown h.founded (descent_of_top found unowned) way
  refine ⟨top, node, steps, found, unowned, way, root_of_descent descent, ?_⟩
  rw [depth, summit_eq, descent]
  rfl

/-- No way down to a node is longer than the climb from it. -/
theorem Sound.length_le_depth (h : a.Sound) {summit : Lineage.Summit} (live : a.contains x = true)
    (climbed : (a.lineage x).summit = .ok summit) (way : a.WayDown top steps x) :
    steps.length ≤ summit.depth := by
  have topLive := h.contains_top_of_wayDown live way
  obtain ⟨w, start⟩ := h.exists_descent topLive
  rw [summit_eq, descent_of_wayDown h.founded start way] at climbed
  cases climbed
  simp

/-! ## Height -/

theorem le_foldl_max (heights : List Nat) (start : Nat) :
    start ≤ heights.foldl (fun height below => max height (below + 1)) start := by
  induction heights generalizing start with
  | nil => exact Nat.le_refl start
  | cons first rest ih => exact Nat.le_trans (Nat.le_max_left _ _) (ih _)

/-- The height counts one step more than the highest tree below. -/
theorem lt_foldl_max {heights : List Nat} {below : Nat} (member : below ∈ heights) (start : Nat) :
    below < heights.foldl (fun height below => max height (below + 1)) start := by
  induction heights generalizing start with
  | nil => cases member
  | cons first rest ih =>
    rcases List.mem_cons.1 member with rfl | later
    · exact Nat.lt_of_lt_of_le (Nat.lt_succ_self below)
        (Nat.le_trans (Nat.le_max_right _ _) (le_foldl_max rest _))
    · exact ih later _

/-- The height reaches down every way through children that is no longer than the fuel. -/
theorem length_le_heightWithin (h : a.Consistent) {fuel height : Nat}
    (way : a.WayDown top steps x) (placed : ∀ y ∈ steps, a.place? y = some .child)
    (measured : a.heightWithin fuel top = .ok height) (enough : steps.length ≤ fuel) :
    steps.length ≤ height := by
  induction fuel generalizing top steps height with
  | zero => exact Nat.le_trans enough (Nat.zero_le height)
  | succ fuel ih =>
    cases way with
    | here top => exact Nat.zero_le height
    | @down _ next _ rest owned way =>
      rw [heightWithin] at measured
      simp only [bind_eq_ok_iff, pure_eq_ok_iff] at measured
      obtain ⟨children, listed, heights, below, rfl⟩ := measured
      have member : next ∈ a.childrenAt top :=
        h.mem_childrenAt_iff.2 ⟨owned, placed next List.mem_cons_self⟩
      obtain ⟨node, found⟩ := h.exists_find?_owner owned
      rw [childrenAt_of_find? found] at member
      rw [Arena.children, get_of_find? found] at listed
      cases listed
      obtain ⟨deep, here, reaches⟩ := exists_mem_of_mapM below (List.mem_reverse.2 member)
      have bound := ih way (fun y later => placed y (.tail _ later)) reaches
        (Nat.le_of_succ_le_succ enough)
      exact Nat.lt_of_le_of_lt bound (lt_foldl_max here 0)

/-! ## Every step keeps an arena shallow -/

theorem place?_sweep {work : List NodeId} {place : Place}
    (placed : (a.sweep work).place? x = some place) : a.place? x = some place := by
  by_cases covered : a.Covers work x
  · rw [place?, find?_sweep_of_covers covered] at placed
    cases placed
  · rwa [place?, find?_sweep_of_not_covers covered] at placed

/-- What an insertion makes deepest has been measured before. -/
theorem Shallow.move (shallow : a.Shallow a.config.maxDepth) (h : a.Sound) {parent child : NodeId}
    {place : List NodeId → List NodeId} (checked : a.checkInsertable parent child = .ok ())
    (h' : ((a.unlink child).link parent child place).Sound) :
    ((a.unlink child).link parent child place).Shallow a.config.maxDepth := by
  obtain ⟨container, placedChild, _, summit, height, climbed, measured, fits⟩ :=
    checkInsertable_eq_ok_iff.1 checked
  have relinks := relinks_unlink h.toConsistent child
  have relinks' := relinks.trans (relinks_link (g := place) (h.unlink placedChild)
    (relinks.isContainer container) ((relinks.place child).trans placedChild))
  have live : (a.unlink child).contains child = true := by
    rw [relinks.contains]
    exact contains_of_place? placedChild
  have owners : ∀ y, ((a.unlink child).link parent child place).owner? y
      = if child = y then some parent else a.owner? y := by
    intro y
    rw [owner?_link live, owner?_unlink]
    split <;> rfl
  have others : ∀ {steps : List NodeId}, child ∉ steps → ∀ y ∈ steps,
      a.owner? y = ((a.unlink child).link parent child place).owner? y := by
    intro steps absent y member
    rw [owners, if_neg (ne_of_mem_of_not_mem member absent).symm]
  intro top x steps way placed
  have placed : a.place? x = some .child := (relinks'.place x).symm.trans placed
  by_cases moved : child ∈ steps
  · -- The way leads over the new link, and only once, since there are no circles.
    obtain ⟨owner, before, after, rfl, upper, owned, lower⟩ := way.split moved
    obtain rfl : parent = owner := by
      have named := owners child
      rw [if_pos rfl] at named
      exact Option.some.inj (named.symm.trans owned)
    have absentBefore : child ∉ before := fun member =>
      h'.founded.transGen.irrefl.irrefl child (.tail' (upper.above_end member) owned)
    have upper := upper.congr (others absentBefore)
    have lower := lower.congr (others (lower.top_not_mem h'.founded))
    have high := h.length_le_depth container.contains climbed upper
    have deep := length_le_heightWithin h.toConsistent lower (h.place?_of_wayDown lower placed)
      measured (Nat.le_succ_of_le (length_le_size h.founded lower))
    simp only [List.length_append, List.length_cons]
    omega
  · exact shallow _ _ _ (way.congr (others moved)) placed

theorem Change.shallow (change : a.Change a') (h : a.Sound)
    (shallow : a.Shallow a.config.maxDepth) : a'.Shallow a'.config.maxDepth := by
  have h' := change.sound h
  rw [change.config_eq h.toConsistent]
  cases change with
  | create kind bare =>
    refine shallow.mono h'.toConsistent fun x owner owned placed => ?_
    rw [owner?_push] at owned
    obtain ⟨node, found, _⟩ := exists_find?_of_owner? owned
    rw [place?, find?_push, if_neg (nextId_ne_of_find? found)] at placed
    exact ⟨owned, placed⟩
  | move parent child place checked adds => exact shallow.move h checked h'
  | remove child placed =>
    refine shallow.mono h'.toConsistent fun x owner owned placed' => ?_
    rw [owner?_unlink] at owned
    split at owned
    next same => cases owned
    next other => exact ⟨owned, ((relinks_unlink h.toConsistent _).place x).symm.trans placed'⟩
  | claim laws element id key found placed apart =>
    refine shallow.mono h'.toConsistent fun x owner owned placed' => ?_
    have relinks := relinks_claimed h.toConsistent laws found placed apart
    have placed' := (relinks.place x).symm.trans placed'
    rw [owner?_claimed h.toConsistent laws placed] at owned
    split at owned
    next same =>
      subst same
      exact absurd (Option.some.inj (placed.symm.trans placed')) (laws.ne_child key)
    next other =>
      split at owned
      next stands => cases owned
      next stays => exact ⟨owned, placed'⟩
  | discharge laws element key found =>
    refine shallow.mono h'.toConsistent fun x owner owned placed' => ?_
    have relinks := relinks_discharged h.toConsistent laws found key
    rw [owner?_discharged h.toConsistent laws] at owned
    split at owned
    next stands => cases owned
    next stays => exact ⟨owned, (relinks.place x).symm.trans placed'⟩
  | sweep id apart unowned =>
    exact shallow.mono h'.toConsistent fun x owner owned placed =>
      ⟨owner?_sweep owned, place?_sweep placed⟩
  | relabel id f apart same =>
    refine shallow.mono h'.toConsistent fun x owner owned placed => ?_
    rw [owner?_relabel same] at owned
    exact ⟨owned, ((relinks_relabel same apart).place x).symm.trans placed⟩

theorem shallow_empty (config : Config) (limit : Nat) : (Arena.empty config).Shallow limit := by
  intro top x steps way placed
  cases way with
  | here top => exact Nat.zero_le limit
  | down owned _ =>
    rw [Owns, owner?_empty] at owned
    cases owned

theorem Reachable.shallow (reachable : Reachable config a) : a.Shallow config.maxDepth := by
  have kept := reachable.invariant (P := fun a => a.Shallow a.config.maxDepth)
    (shallow_empty config _) fun sound change shallow => change.shallow sound shallow
  rwa [reachable.config_eq] at kept

/-! ## The bound -/

/-- A node that is not filed on a shelf is no deeper than a child. -/
theorem Shallow.length_le (shallow : a.Shallow limit) (h : a.Consistent)
    (way : a.WayDown top steps x) {node : Node} (found : a.find? x = some node)
    (unmapped : node.type.isMapped = false) : steps.length ≤ limit := by
  cases steps with
  | nil => exact Nat.zero_le limit
  | cons y rest =>
    obtain ⟨owner, _, _, _, owned⟩ := way.exists_snoc
    exact shallow _ _ _ way
      (listed_of_parent h found unmapped ((owner?_of_find? found).symm.trans owned))

/-- Nothing is more than one step deeper than a child. -/
theorem Shallow.length_le_succ (shallow : a.Shallow limit) (h : a.Consistent)
    (way : a.WayDown top steps x) : steps.length ≤ limit + 1 := by
  cases steps with
  | nil => exact Nat.zero_le _
  | cons y rest =>
    obtain ⟨owner, before, path, upper, owned⟩ := way.exists_snoc
    rw [path, List.length_append, List.length_singleton, Nat.add_le_add_iff_right]
    cases before with
    | nil => exact Nat.zero_le limit
    | cons z middle =>
      obtain ⟨_, _, _, _, owns⟩ := upper.exists_snoc
      exact shallow _ _ _ upper (h.place?_of_owns owns owned)

/-- What bounds the chains of owners in an arena. -/
structure DepthLaws (a : Arena) (limit : Nat) : Prop where
  /-- No chain of owners leads back to where it started. -/
  acyclic : ∀ id, ¬ TransGen a.Owns id id
  /-- No node is one of its own ancestors. -/
  apart : ∀ id, id ∉ a.ancestors id
  /-- The chain from a live node ends at its root, which is live and has no owner, and the
  depth is the number of steps between the two. -/
  ends : ∀ id, a.contains id = true → ∃ top node steps, a.root id = .ok top ∧
    a.find? top = some node ∧ node.parent = none ∧ a.WayDown top steps id ∧
      a.depth id = .ok steps.length
  /-- Documents, elements, texts and comments are no deeper than the limit. -/
  nodes : ∀ id node, a.find? id = some node → node.type.isMapped = false →
    ∃ depth, a.depth id = .ok depth ∧ depth ≤ limit
  /-- Attributes and declarations are at most one step deeper than that. -/
  mapped : ∀ id node, a.find? id = some node → node.type.isMapped = true →
    ∃ depth, a.depth id = .ok depth ∧ depth ≤ limit + 1

theorem Founded.not_mem_ancestors (founded : a.Founded) (id : NodeId) : id ∉ a.ancestors id := by
  have traces := traces_lineage founded id
  have nodup := traces.nodup_ids founded
  have first := first_lineage a id
  rw [ancestors]
  cases climb : a.lineage id with
  | top top node => exact List.not_mem_nil
  | missing missing => exact List.not_mem_nil
  | step bottom node above =>
    rw [climb, Lineage.ids, List.nodup_cons] at nodup
    rw [climb, Lineage.first] at first
    exact first ▸ nodup.1

/-- In every reachable arena chains of owners end, and no deeper than the settings say. -/
theorem Reachable.depthLaws (reachable : Reachable config a) : a.DepthLaws config.maxDepth where
  acyclic := reachable.sound.founded.transGen.irrefl.irrefl
  apart := reachable.sound.founded.not_mem_ancestors
  ends id live := by
    obtain ⟨top, node, steps, found, unowned, way, roots, depth⟩ :=
      reachable.sound.exists_root_wayDown live
    exact ⟨top, node, steps, roots, found, unowned, way, depth⟩
  nodes id node found unmapped := by
    obtain ⟨_, _, _, _, _, way, _, depth⟩ :=
      reachable.sound.exists_root_wayDown (contains_iff.2 ⟨node, found⟩)
    exact ⟨_, depth, reachable.shallow.length_le reachable.sound.toConsistent way found unmapped⟩
  mapped id node found _ := by
    obtain ⟨_, _, _, _, _, way, _, depth⟩ :=
      reachable.sound.exists_root_wayDown (contains_iff.2 ⟨node, found⟩)
    exact ⟨_, depth, reachable.shallow.length_le_succ reachable.sound.toConsistent way⟩

/-- Depths after a refused and an accepted move into an arena with a limit of two. -/
theorem depthLaws_of_limit : ((Session.start { maxDepth := 2 }).runAll
    [.createDocument none, .createElement none "a", .appendChild ⟨1⟩ ⟨2⟩, .createElement none "b",
      .createElement none "c", .appendChild ⟨3⟩ ⟨4⟩, .addAttribute ⟨4⟩ none "k" "k" "v",
      .appendChild ⟨2⟩ ⟨3⟩, .appendChild ⟨1⟩ ⟨3⟩]).arena.DepthLaws 2 :=
  Reachable.depthLaws (Reachable.runAll (s := .start { maxDepth := 2 }) .empty _)

end XmlTree.Arena
