import Mathlib.Order.Bounds.Basic
import Mathlib.Order.MinMax
import XmlTree.Proofs.Depth
import XmlTree.Proofs.Failure.Questions
import XmlTree.Proofs.Views

/-!
# When an insertion succeeds

Whether a child may come under a parent depends on what the two are (`MayHold`) and on two
numbers: how many steps lead up from the parent to the end of its chain of owners
(`HasDepth`), and how many links the longest chain of child links below the child has
(`HasHeight`).  The child comes one step below the parent, so the three together are where
the moved tree comes to lie deepest.

The climb from the parent counts the first number (`Sound.exists_summit_of_hasDepth`) and
the measuring of the child's tree the second (`Sound.height_eq_ok_iff`).  The tree is
measured where it hangs before the move.  That makes no difference, since a chain of child
links below the child does not pass through it again.
-/

namespace XmlTree.Arena

variable {a a' : Arena} {config : Config} {parent child reference top x : NodeId}
variable {steps : List NodeId} {fuel d n : Nat}

/-! ## Chains of child links -/

/-- A chain of child links from a node down, given by the nodes below the first. -/
def ChildLinks (a : Arena) (top : NodeId) (steps : List NodeId) : Prop :=
  (top :: steps).IsChain fun parent child => child ∈ a.childrenAt parent

/-- The longest chain of child links below a node has `n` links. -/
def HasHeight (a : Arena) (x : NodeId) (n : Nat) : Prop :=
  IsGreatest {k | ∃ steps, a.ChildLinks x steps ∧ steps.length = k} n

/-- A node without a parent is `d` parent steps above. -/
def HasDepth (a : Arena) (x : NodeId) (d : Nat) : Prop :=
  ∃ top steps, a.parent top = .ok none ∧ a.WayDown top steps x ∧ steps.length = d

/-- A chain of child links is a way down through children. -/
theorem ChildLinks.exists_wayDown (h : a.Consistent) (links : a.ChildLinks top steps) :
    ∃ x, a.WayDown top steps x ∧ ∀ y ∈ steps, a.place? y = some .child := by
  induction steps generalizing top with
  | nil => exact ⟨top, .here top, nofun⟩
  | cons next rest ih =>
    obtain ⟨listed, lower⟩ := List.isChain_cons_cons.1 links
    obtain ⟨owned, placed⟩ := h.mem_childrenAt_iff.1 listed
    obtain ⟨x, way, below⟩ := ih lower
    exact ⟨x, .down owned way, List.forall_mem_cons.2 ⟨placed, below⟩⟩

/-! ## Height -/

theorem heightWithin_succ (live : a.contains x = true) : a.heightWithin (fuel + 1) x
    = (fun heights => heights.foldl (fun height below => max height (below + 1)) 0) <$>
        (a.childrenAt x).reverse.mapM (a.heightWithin fuel) := by
  rw [heightWithin, children_of_contains live]
  show ((a.childrenAt x).reverse.mapM (a.heightWithin fuel) >>= _) = _
  cases (a.childrenAt x).reverse.mapM (a.heightWithin fuel) with
  | error e => rfl
  | ok heights => rfl

/-- A tree is measured to its end, since all children are live. -/
theorem Consistent.exists_heightWithin (h : a.Consistent) (fuel : Nat)
    (live : a.contains x = true) : ∃ n, a.heightWithin fuel x = .ok n := by
  induction fuel generalizing x with
  | zero => exact ⟨0, rfl⟩
  | succ fuel ih =>
    obtain ⟨heights, below⟩ := exists_mapM_eq_ok fun child member =>
      ih (h.contains_of_mem_childrenAt (List.mem_reverse.1 member))
    rw [heightWithin_succ live, below]
    exact ⟨_, rfl⟩

/-- The height is no more than what one of the trees below accounts for. -/
theorem exists_foldl_max (heights : List Nat) (start : Nat) :
    heights.foldl (fun height below => max height (below + 1)) start = start ∨
      ∃ below ∈ heights,
        heights.foldl (fun height below => max height (below + 1)) start = below + 1 := by
  induction heights generalizing start with
  | nil => exact .inl rfl
  | cons first rest ih =>
    rw [List.foldl_cons]
    rcases ih (max start (first + 1)) with same | ⟨below, member, same⟩
    · rw [same]
      exact (max_choice start (first + 1)).imp_right fun larger =>
        ⟨first, List.mem_cons_self, larger⟩
    · exact .inr ⟨below, .tail _ member, same⟩

/-- What is measured is the length of some chain of child links. -/
theorem Consistent.exists_childLinks (h : a.Consistent) (live : a.contains top = true)
    (measured : a.heightWithin fuel top = .ok n) :
    ∃ steps, a.ChildLinks top steps ∧ steps.length = n := by
  induction fuel generalizing top n with
  | zero =>
    cases measured
    exact ⟨[], .singleton top, rfl⟩
  | succ fuel ih =>
    rw [heightWithin_succ live] at measured
    obtain ⟨heights, below, rfl⟩ := map_eq_ok_iff.1 measured
    rcases exists_foldl_max heights 0 with same | ⟨deepest, member, same⟩
    · exact ⟨[], .singleton top, same.symm⟩
    · obtain ⟨next, listed, reaches⟩ := exists_of_mem_mapM below member
      have listed := List.mem_reverse.1 listed
      obtain ⟨steps, links, rfl⟩ := ih (h.contains_of_mem_childrenAt listed) reaches
      exact ⟨next :: steps, .cons_cons listed links, same.symm⟩

/-- Measuring a tree gives the length of its longest chain of child links. -/
theorem Sound.height_eq_ok_iff (h : a.Sound) (live : a.contains x = true) :
    a.height x = .ok n ↔ a.HasHeight x n := by
  have measures : ∀ {m}, a.height x = .ok m → a.HasHeight x m := by
    intro m measured
    refine ⟨h.exists_childLinks live measured, ?_⟩
    rintro k ⟨steps, links, rfl⟩
    -- No chain is longer than the table, so the fuel never cuts the measuring short.
    obtain ⟨bottom, way, placed⟩ := links.exists_wayDown h.toConsistent
    exact length_le_heightWithin h.toConsistent way placed measured
      (Nat.le_succ_of_le (length_le_size h.founded way))
  refine ⟨measures, fun greatest => ?_⟩
  obtain ⟨m, measured⟩ := h.exists_heightWithin (a.slots.size + 1) live
  rw [height, measured, (measures measured).unique greatest]

theorem Sound.exists_hasHeight (h : a.Sound) (live : a.contains x = true) :
    ∃ n, a.HasHeight x n := by
  obtain ⟨n, measured⟩ := h.exists_heightWithin (a.slots.size + 1) live
  exact ⟨n, (h.height_eq_ok_iff live).1 measured⟩

/-! ## Depth -/

/-- The climb from a node counts its parent steps. -/
theorem Sound.exists_summit_of_hasDepth (h : a.Sound) (deep : a.HasDepth x d) :
    ∃ summit, (a.lineage x).summit = .ok summit ∧ summit.depth = d := by
  obtain ⟨top, steps, unowned, way, rfl⟩ := deep
  obtain ⟨node, found, noParent⟩ := parent_eq_ok_iff.1 unowned
  rw [summit_eq, descent_of_wayDown h.founded (descent_of_top found noParent) way]
  exact ⟨_, rfl, rfl⟩

theorem Sound.hasDepth_unique (h : a.Sound) {d' : Nat} (deep : a.HasDepth x d)
    (deep' : a.HasDepth x d') : d' = d := by
  obtain ⟨summit, climbed, rfl⟩ := h.exists_summit_of_hasDepth deep
  obtain ⟨summit', climbed', rfl⟩ := h.exists_summit_of_hasDepth deep'
  rw [Except.ok.inj (climbed.symm.trans climbed')]

theorem Sound.exists_hasDepth (h : a.Sound) (live : a.contains x = true) : ∃ d, a.HasDepth x d := by
  obtain ⟨top, node, steps, found, unowned, way⟩ := h.exists_wayDown live
  exact ⟨_, top, steps, parent_eq_ok_iff.2 ⟨node, found, unowned⟩, way, rfl⟩

/-! ## What may come where -/

/-- One node may hold another: the first lists children, the second is of a type that may
be a child, and it is neither the first nor above it. -/
structure MayHold (a : Arena) (parent child : NodeId) : Prop where
  /-- The parent is a document or an element. -/
  container : ∃ node, a.find? parent = some node ∧ node.type.isContainer = true
  /-- The child is an element, a text or a comment. -/
  insertable : ∃ node, a.find? child = some node ∧ node.type.isChild = true
  /-- The child is not the parent. -/
  other : child ≠ parent
  /-- The child is not above the parent. -/
  apart : child ∉ a.ancestors parent

/-- One node may hold another, and the tree of the second comes to lie no deeper than the
arena allows. -/
def Accepts (a : Arena) (parent child : NodeId) : Prop :=
  a.MayHold parent child ∧
    ∃ d n, a.HasDepth parent d ∧ a.HasHeight child n ∧ d + 1 + n ≤ a.config.maxDepth

theorem MayHold.contains_parent (may : a.MayHold parent child) : a.contains parent = true :=
  contains_iff.2 (may.container.imp fun _ => And.left)

theorem MayHold.contains_child (may : a.MayHold parent child) : a.contains child = true :=
  contains_iff.2 (may.insertable.imp fun _ => And.left)

/-- A child that the parent may hold is refused only for lack of room below. -/
theorem Sound.checkInsertable_of_mayHold (h : a.Sound) (may : a.MayHold parent child)
    (deep : a.HasDepth parent d) (high : a.HasHeight child n) : a.checkInsertable parent child
      = if a.config.maxDepth < d + 1 + n then .error (.tooDeep (d + 1 + n) a.config.maxDepth)
        else .ok () := by
  obtain ⟨parentNode, foundParent, container⟩ := may.container
  obtain ⟨childNode, foundChild, insertable⟩ := may.insertable
  have apart : ¬ (a.lineage parent).contains child = true := by
    rw [Lineage.contains_iff, ids_lineage, List.mem_cons, not_or]
    exact ⟨may.other, may.apart⟩
  obtain ⟨summit, climbed, rfl⟩ := h.exists_summit_of_hasDepth deep
  have measured := (h.height_eq_ok_iff may.contains_child).2 high
  simp only [checkInsertable, nodeType, get_of_find? foundParent, get_of_find? foundChild, climbed,
    measured, Bind.bind, Except.bind, Pure.pure, Except.pure]
  rw [if_pos container, if_pos insertable, if_neg apart]
  rfl

/-- A child is accepted where it may be held and there is room. -/
theorem Sound.checkInsertable_eq_ok_iff_accepts (h : a.Sound) :
    a.checkInsertable parent child = .ok () ↔ a.Accepts parent child := by
  constructor
  · intro checked
    obtain ⟨container, placed, above, _⟩ := checkInsertable_eq_ok_iff.1 checked
    have outside : child ∉ parent :: a.ancestors parent := by
      rw [← ids_lineage, ← Lineage.contains_iff, above]
      exact Bool.false_ne_true
    have may : a.MayHold parent child :=
      ⟨container, Arena.place?_eq_child_iff.1 placed, List.ne_of_not_mem_cons outside,
        List.not_mem_of_not_mem_cons outside⟩
    obtain ⟨d, deep⟩ := h.exists_hasDepth may.contains_parent
    obtain ⟨n, high⟩ := h.exists_hasHeight may.contains_child
    rw [h.checkInsertable_of_mayHold may deep high] at checked
    split at checked
    next tooDeep => cases checked
    next fits => exact ⟨may, d, n, deep, high, Nat.not_lt.1 fits⟩
  · intro ⟨may, d, n, deep, high, fits⟩
    rw [h.checkInsertable_of_mayHold may deep high, if_neg (Nat.not_lt.2 fits)]

/-! ## The two insertions -/

theorem Sound.exists_appendChild_iff (h : a.Sound) :
    (∃ a', Edit.appendChild parent child a = .ok () a') ↔ a.Accepts parent child := by
  rw [← h.checkInsertable_eq_ok_iff_accepts, appendChild_eq h.toConsistent]
  cases a.checkInsertable parent child with
  | error e => exact ⟨nofun, nofun⟩
  | ok _ => exact ⟨fun _ => rfl, fun _ => ⟨_, rfl⟩⟩

/-- With a reference that stands where it should, an insertion does nothing or is checked. -/
theorem Consistent.insertBefore_of_refers (h : a.Consistent) (refers : a.Refers parent reference)
    (child : NodeId) : Edit.insertBefore parent child reference a
      = if child = reference then .ok () a else match a.checkInsertable parent child with
        | .ok _ => .ok () ((a.unlink child).link parent child (·.insertIdx
            (((a.childrenAt parent).takeWhile (· ≠ reference)).erase child).length child))
        | .error e => .error e a := by
  obtain ⟨node, found, unmapped, owned⟩ := refers
  have known : ¬ (node.type.isMapped = true ∨ node.parent ≠ some parent) := by
    simp [unmapped, owned]
  have runs := insertBefore_eq h parent child reference
  simp only [found, if_neg known] at runs
  exact runs

theorem Sound.exists_insertBefore_iff (h : a.Sound) :
    (∃ a', Edit.insertBefore parent child reference a = .ok () a') ↔
      a.Refers parent reference ∧ (child = reference ∨ a.Accepts parent child) := by
  rw [← h.checkInsertable_eq_ok_iff_accepts]
  constructor
  · intro ⟨a', ran⟩
    obtain ⟨refers, done⟩ := checked_of_insertBefore h.toConsistent ran
    exact ⟨refers, done.imp And.left fun moved => moved.2.1⟩
  · intro ⟨refers, accepted⟩
    rw [h.insertBefore_of_refers refers child]
    rcases accepted with same | checked
    · exact ⟨a, if_pos same⟩
    · rw [checked]
      exact (ite_eq_or_eq _ _ _).elim (fun done => ⟨_, done⟩) fun done => ⟨_, done⟩

/-! ## The laws of insertion -/

/-- When insertions succeed. -/
structure InsertionLaws (a : Arena) : Prop where
  /-- A live node is at one depth. -/
  depth : ∀ x, a.contains x = true → ∃! d, a.HasDepth x d
  /-- A live node has one height. -/
  height : ∀ x, a.contains x = true → ∃! n, a.HasHeight x n
  /-- A child is appended where it is accepted. -/
  append : ∀ parent child,
    (∃ a', Edit.appendChild parent child a = .ok () a') ↔ a.Accepts parent child
  /-- A child that is refused only for lack of room is refused as too deep, and by how much. -/
  tooDeep : ∀ parent child d n, a.MayHold parent child → a.HasDepth parent d →
    a.HasHeight child n → a.config.maxDepth < d + 1 + n →
      Edit.appendChild parent child a = .error (.tooDeep (d + 1 + n) a.config.maxDepth) a
  /-- A child is inserted before a child of the parent, if it is that one or is accepted. -/
  insert : ∀ parent child reference,
    (∃ a', Edit.insertBefore parent child reference a = .ok () a') ↔
      a.Refers parent reference ∧ (child = reference ∨ a.Accepts parent child)
  /-- An insertion of a child before itself changes nothing. -/
  same : ∀ parent child, a.Refers parent child →
    Edit.insertBefore parent child child a = .ok () a

/-- In every reachable arena an insertion succeeds exactly where it is accepted. -/
theorem Reachable.insertionLaws (reachable : Reachable config a) : a.InsertionLaws where
  depth x live :=
    (reachable.sound.exists_hasDepth live).imp fun d deep =>
      ⟨deep, fun d' deep' => reachable.sound.hasDepth_unique deep deep'⟩
  height x live :=
    (reachable.sound.exists_hasHeight live).imp fun n high =>
      ⟨high, fun m high' => high'.unique high⟩
  append parent child := reachable.sound.exists_appendChild_iff
  tooDeep parent child d n may deep high beyond := by
    rw [appendChild_eq reachable.sound.toConsistent,
      reachable.sound.checkInsertable_of_mayHold may deep high, if_pos beyond]
  insert parent child reference := reachable.sound.exists_insertBefore_iff
  same parent child refers := by
    rw [reachable.sound.insertBefore_of_refers refers child, if_pos rfl]

/-- A document with a child, and another tree of one link, where no tree may have more than two
links on a way down. -/
def shallowTrees : Arena :=
  ((Session.start { maxDepth := 2 }).runAll
    [.createDocument none, .createElement none "a", .appendChild ⟨1⟩ ⟨2⟩, .createElement none "b",
      .createText "t", .appendChild ⟨3⟩ ⟨4⟩]).arena

/-- The laws hold next to the limit. -/
theorem insertionLaws_of_limit : shallowTrees.InsertionLaws :=
  Reachable.insertionLaws (Reachable.runAll (s := .start { maxDepth := 2 }) .empty _)

-- The other tree fits below the document but not below its child.
example :
    ((Edit.appendChild ⟨1⟩ ⟨3⟩).outcome shallowTrees).1 = .ok () ∧
      ((Edit.appendChild ⟨2⟩ ⟨3⟩).outcome shallowTrees).1 = .error (.tooDeep 3 2) := by
  decide +kernel

end XmlTree.Arena
