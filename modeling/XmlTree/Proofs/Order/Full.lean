import Mathlib.Data.List.Flatten
import XmlTree.Arena.Element
import XmlTree.Arena.Preorder
import XmlTree.Proofs.Order.Siblings
import XmlTree.Proofs.Order.Ways
import XmlTree.Proofs.Reachable

/-!
# Document order as a list

`fullOrder` writes a tree down in document order: a node, its declarations, its
attributes, and then each child with all that is below it.  The comparison never makes
this list.  It follows two ways down to where they part.  Still the two agree:
`pairwise_fullOrder` says that whatever comes earlier in the list comes earlier in the
comparison.

The argument goes down the tree.  Two nodes of the list are the top and a node below it,
or lie below one and the same node that the top lists, or below two that it lists one
after the other.  In the last case the ranks of those two decide (`pairwise_below`).
-/

namespace XmlTree.Arena

variable {a : Arena} {config : Config} {top x y : NodeId}

/-- A node and all that is below it in document order, at most `fuel` levels deep. -/
def fullWithin (a : Arena) : (fuel : Nat) → NodeId → List NodeId
  | 0, _ => []
  | fuel + 1, id => id :: ((a.shelfAt .declarations id).values ++ (a.shelfAt .attributes id).values
      ++ (a.childrenAt id).flatMap (a.fullWithin fuel))

/-- A node and all that is below it, in document order. -/
def fullOrder (a : Arena) (id : NodeId) : List NodeId := a.fullWithin (a.slots.size + 1) id

/-! ## The list follows the tree -/

/-- What is found by going down the child lists is the same for all numbers of levels that
reach to the bottom of the tree. -/
theorem Sound.within_congr (h : a.Sound) {β : Type} {walk : Nat → NodeId → β}
    (down : ∀ fuel fuel' top, (∀ child ∈ a.childrenAt top, walk fuel child = walk fuel' child) →
      walk (fuel + 1) top = walk (fuel' + 1) top) {fuel fuel' : Nat}
    (enough : a.slots.size + 2 ≤ fuel + (a.lineage top).ids.length)
    (enough' : a.slots.size + 2 ≤ fuel' + (a.lineage top).ids.length) :
    walk fuel top = walk fuel' top := by
  have bound := length_ids_lineage_le h.founded top
  induction fuel generalizing fuel' top with
  | zero => omega
  | succ fuel ih =>
    cases fuel' with
    | zero => omega
    | succ fuel' =>
      refine down fuel fuel' top fun child member => ?_
      have deeper := length_ids_of_owner h.founded (h.mem_childrenAt_iff.1 member).1
      exact ih (by omega) (by omega) (length_ids_lineage_le h.founded child)

/-- The levels that are left below the top reach to the bottom too. -/
theorem Sound.within_child (h : a.Sound) {β : Type} {walk : Nat → NodeId → β}
    (down : ∀ fuel fuel' top, (∀ child ∈ a.childrenAt top, walk fuel child = walk fuel' child) →
      walk (fuel + 1) top = walk (fuel' + 1) top) {child : NodeId}
    (member : child ∈ a.childrenAt top) :
    walk a.slots.size child = walk (a.slots.size + 1) child := by
  have deeper := length_ids_of_owner h.founded (h.mem_childrenAt_iff.1 member).1
  have positive := length_ids_lineage_pos a top
  exact h.within_congr down (by omega) (by omega)

theorem fullOrder_eq (h : a.Sound) (top : NodeId) : a.fullOrder top
    = top :: ((a.shelfAt .declarations top).values ++ (a.shelfAt .attributes top).values
      ++ (a.childrenAt top).flatMap a.fullOrder) := by
  rw [fullOrder, fullWithin]
  congr 2
  refine List.flatMap_congr fun child member => h.within_child (fun fuel fuel' id same => ?_) member
  rw [fullWithin, fullWithin, List.flatMap_congr same]

/-- A node that is filed on a shelf owns nothing. -/
theorem below_of_file (h : a.Consistent) {κ : Type} [DecidableEq κ] {shelf : Shelf κ}
    {file : κ → Place} (laws : shelf.Lawful file) {key : κ}
    (placed : a.place? x = some (file key)) : a.below x = [] := by
  rw [List.eq_nil_iff_forall_not_mem]
  exact fun y member => h.not_owns_of_file laws placed (h.mem_below_iff.1 member)

/-- A node that is filed on a shelf stands alone. -/
theorem fullOrder_of_file (h : a.Sound) {κ : Type} [DecidableEq κ] {shelf : Shelf κ}
    {file : κ → Place} (laws : shelf.Lawful file) {owner : NodeId}
    (filed : x ∈ (a.shelfAt shelf owner).values) :
    a.fullOrder x = [x] := by
  obtain ⟨key, entry⟩ := OrderedMap.mem_values_iff.1 filed
  have placed := (h.lists_iff.1 (laws.lists_iff.2 entry)).2
  have nothing := below_of_file h.toConsistent laws placed
  rw [below, List.append_eq_nil_iff] at nothing
  rw [fullOrder_eq h, nothing.1, nothing.2]
  rfl

/-- The list goes on with all that the top lists, each with what is below it. -/
theorem fullOrder_eq_flatMap_below (h : a.Sound) (top : NodeId) :
    a.fullOrder top = top :: (a.below top).flatMap a.fullOrder := by
  have alone : ∀ ids : List NodeId, (∀ id ∈ ids, a.fullOrder id = [id]) →
      ids.flatMap a.fullOrder = ids := by
    intro ids leaves
    rw [List.flatMap_congr leaves]
    exact List.flatMap_singleton' ids
  rw [fullOrder_eq h, below, List.flatMap_append, List.flatMap_append,
    alone _ fun _ => fullOrder_of_file h Shelf.declarations_lawful,
    alone _ fun _ => fullOrder_of_file h Shelf.attributes_lawful]

/-- The list holds what there is a way down to. -/
theorem mem_fullOrder_iff (h : a.Sound) : x ∈ a.fullOrder top ↔ ∃ steps, a.WayDown top steps x := by
  constructor
  · intro member
    induction top using h.founded.below.induction with
    | _ top ih =>
      rw [fullOrder_eq_flatMap_below h, List.mem_cons, List.mem_flatMap] at member
      rcases member with rfl | ⟨next, listed, member⟩
      · exact ⟨[], .here x⟩
      · have owned := h.mem_below_iff.1 listed
        obtain ⟨steps, way⟩ := ih next owned member
        exact ⟨next :: steps, .down owned way⟩
  · intro ⟨steps, way⟩
    induction way with
    | here top =>
      rw [fullOrder_eq_flatMap_below h]
      exact List.mem_cons_self
    | @down top next bottom steps owned _ ih =>
      rw [fullOrder_eq_flatMap_below h]
      exact List.mem_cons_of_mem _ (List.mem_flatMap.2 ⟨next, h.mem_below_iff.2 owned, ih⟩)

/-! ## The list follows the comparison -/

/-- Along the list the ways down from the top go up. -/
theorem pairwise_steps_fullOrder (h : a.Sound) (top : NodeId) :
    (a.fullOrder top).Pairwise fun x y => ∃ xs ys,
      a.WayDown top xs x ∧ a.WayDown top ys y ∧ a.compareSteps top xs ys = .ok .lt := by
  induction top using h.founded.below.induction with
  | _ top ih =>
    rw [fullOrder_eq_flatMap_below h, List.pairwise_cons, List.pairwise_flatMap]
    refine ⟨?first, ?inside, ?across⟩
    case first =>
      intro y member
      obtain ⟨next, listed, member⟩ := List.mem_flatMap.1 member
      obtain ⟨ys, way⟩ := (mem_fullOrder_iff h).1 member
      exact ⟨[], next :: ys, .here top, .down (h.mem_below_iff.1 listed) way, rfl⟩
    case inside =>
      intro next listed
      have owned := h.mem_below_iff.1 listed
      refine (ih next owned).imp ?_
      intro x y ⟨xs, ys, wayX, wayY, less⟩
      refine ⟨next :: xs, next :: ys, .down owned wayX, .down owned wayY, ?_⟩
      rw [compareSteps_cons_self]
      exact less
    case across =>
      refine List.Pairwise.imp_of_mem ?_ (h.pairwise_below top)
      intro next next' listed listed' before x memberX y memberY
      obtain ⟨xs, wayX⟩ := (mem_fullOrder_iff h).1 memberX
      obtain ⟨ys, wayY⟩ := (mem_fullOrder_iff h).1 memberY
      exact ⟨next :: xs, next' :: ys, .down (h.mem_below_iff.1 listed) wayX,
        .down (h.mem_below_iff.1 listed') wayY,
        compareSteps_of_ranksBefore before⟩

/-- What comes earlier in the list comes earlier in document order. -/
theorem pairwise_fullOrder (h : a.Sound) (live : a.contains top = true) :
    (a.fullOrder top).Pairwise fun x y => a.compareOrder x y = .ok (some .lt) := by
  obtain ⟨w, way⟩ := h.exists_descent live
  refine (pairwise_steps_fullOrder h top).imp ?_
  intro x y ⟨xs, ys, wayX, wayY, less⟩
  exact compareOrder_of_wayDown h.founded way wayX wayY less

theorem nodup_fullOrder (h : a.Sound) (live : a.contains top = true) : (a.fullOrder top).Nodup :=
  (pairwise_fullOrder h live).imp ne_of_compareOrder

/-! ## Positions -/

theorem contains_of_wayDown {steps : List NodeId} (live : a.contains top = true)
    (way : a.WayDown top steps x) : a.contains x = true := by
  induction way with
  | here top => exact live
  | down owned _ ih => exact ih (contains_of_owner? owned)

theorem contains_of_mem_fullOrder (h : a.Sound) (live : a.contains top = true)
    (member : x ∈ a.fullOrder top) : a.contains x = true := by
  obtain ⟨steps, way⟩ := (mem_fullOrder_iff h).1 member
  exact contains_of_wayDown live way

/-- Nodes of one list compare as their positions do. -/
theorem compareOrder_eq_compare_idxOf (h : a.Sound) (live : a.contains top = true)
    (memberX : x ∈ a.fullOrder top) (memberY : y ∈ a.fullOrder top) : a.compareOrder x y
      = .ok (some (compare ((a.fullOrder top).idxOf x) ((a.fullOrder top).idxOf y))) := by
  have ordered := List.pairwise_iff_getElem.1 (pairwise_fullOrder h live)
  have distinct := nodup_fullOrder h live
  obtain ⟨i, hi, rfl⟩ := List.getElem_of_mem memberX
  obtain ⟨j, hj, rfl⟩ := List.getElem_of_mem memberY
  rw [distinct.idxOf_getElem i hi, distinct.idxOf_getElem j hj]
  rcases Nat.lt_trichotomy i j with less | same | greater
  · rw [Nat.compare_eq_lt.2 less]
    exact ordered i j hi hj less
  · subst same
    rw [Nat.compare_eq_eq.2 rfl]
    exact compareOrder_self.2 ⟨rfl, contains_of_mem_fullOrder h live memberX⟩
  · rw [Nat.compare_eq_gt.2 greater]
    exact compareOrder_swap (ordered j i hj hi greater)

/-- A live node stands in the list of its root. -/
theorem Sound.exists_root (h : a.Sound) (live : a.contains x = true) : ∃ root,
    a.root x = .ok root ∧ a.contains root = true ∧ x ∈ a.fullOrder root := by
  obtain ⟨top, node, steps, found, unowned, way⟩ := h.exists_wayDown live
  have descent := descent_of_wayDown h.founded (descent_of_top found unowned) way
  exact ⟨top, root_of_descent descent, contains_iff.2 ⟨node, found⟩,
    (mem_fullOrder_iff h).2 ⟨steps, way⟩⟩

/-- Nodes of different trees compare as the trees do. -/
theorem compareOrder_of_root_ne (h : a.Sound) (liveX : a.contains x = true)
    (liveY : a.contains y = true) {rootX rootY : NodeId} (rootsX : a.root x = .ok rootX)
    (rootsY : a.root y = .ok rootY) (apart : rootX ≠ rootY) : ∃ v w : Descent, v.root = rootX ∧
      w.root = rootY ∧ a.find? rootX = some v.node ∧ a.find? rootY = some w.node ∧
        a.compareOrder x y = .ok (compareTrees v w) := by
  obtain ⟨v, wayX⟩ := h.exists_descent liveX
  obtain ⟨w, wayY⟩ := h.exists_descent liveY
  cases rootsX.symm.trans (root_of_descent wayX)
  cases rootsY.symm.trans (root_of_descent wayY)
  have other : x ≠ y := by
    intro same
    subst same
    cases wayX.symm.trans wayY
    exact apart rfl
  refine ⟨v, w, rfl, rfl, find?_root wayX, find?_root wayY, ?_⟩
  exact (compareOrder_eq_ok_iff other).2 ⟨v, w, wayX, wayY, compareWays_of_root_ne apart⟩

theorem document_eq_ok_iff_of_find? {node : Node} (found : a.find? x = some node)
    {data : DocumentData} : a.document x = .ok data ↔ node.document? = some data := by
  rw [document_eq_ok_iff, found]
  obtain ⟨_, _, kind⟩ := node
  cases kind <;> simp [Node.document?]

/-! ## Descendants -/

/-- The preorder is a node and the preorder of each of its children. -/
theorem preorder_eq (h : a.Sound) (top : NodeId) :
    a.preorder top = top :: (a.childrenAt top).flatMap a.preorder := by
  rw [preorder, preorderWithin]
  congr 1
  refine List.flatMap_congr fun child member => h.within_child (fun fuel fuel' id same => ?_) member
  rw [preorderWithin, preorderWithin, List.flatMap_congr same]

theorem preorderWithin_sublist (a : Arena) (fuel : Nat) (top : NodeId) :
    (a.preorderWithin fuel top).Sublist (a.fullWithin fuel top) := by
  induction fuel generalizing top with
  | zero => exact .refl _
  | succ fuel ih =>
    rw [preorderWithin, fullWithin]
    have inside := List.Sublist.flatMap_right (a.childrenAt top) fun child _ => ih child
    exact (inside.trans (List.sublist_append_right _ _)).cons_cons top

/-- The descendants are the preorder, since every node records its own identity. -/
theorem descendants_eq (h : a.Sound) (live : a.contains top = true) :
    a.descendants top = .ok (a.preorder top) := by
  rw [descendants_eq_mapM_preorder]
  refine (mapM_eq_ok (g := id) fun id member => ?_).trans (congrArg _ (List.map_id _))
  have listed : id ∈ a.fullOrder top := (preorderWithin_sublist a _ top).subset member
  obtain ⟨node, found⟩ := contains_iff.1 (contains_of_mem_fullOrder h live listed)
  rw [get_of_find? found]
  exact congrArg Except.ok (h.recorded found)

/-! ## The comparison and the list -/

/-- The comparison of live nodes is the order of `fullOrder`, tree by tree. -/
structure DocumentOrder (a : Arena) : Prop where
  /-- The list is a node, its declarations, its attributes, and the lists of its children. -/
  list : ∀ id, a.fullOrder id = id :: ((a.shelfAt .declarations id).values
    ++ (a.shelfAt .attributes id).values ++ (a.childrenAt id).flatMap a.fullOrder)
  /-- A live node has a root and one position in the list of that root. -/
  position : ∀ x, a.contains x = true → ∃ root, a.root x = .ok root ∧ x ∈ a.fullOrder root ∧
    (a.fullOrder root).Nodup
  /-- Nodes of one tree compare as their positions do. -/
  sameTree : ∀ x y root, a.contains x = true → a.contains y = true → a.root x = .ok root →
    a.root y = .ok root → a.compareOrder x y
      = .ok (some (compare ((a.fullOrder root).idxOf x) ((a.fullOrder root).idxOf y)))
  /-- Nodes of two documents compare as the documents do. -/
  documents : ∀ x y rootX rootY dataX dataY, a.contains x = true → a.contains y = true →
    a.root x = .ok rootX → a.root y = .ok rootY → rootX ≠ rootY →
    a.document rootX = .ok dataX → a.document rootY = .ok dataY → a.compareOrder x y
      = .ok (some ((compare dataX.index dataY.index).then (compare rootX.index rootY.index)))
  /-- Nodes of other trees do not compare. -/
  otherTrees : ∀ x y rootX rootY, a.contains x = true → a.contains y = true →
    a.root x = .ok rootX → a.root y = .ok rootY → rootX ≠ rootY →
    (¬ ∃ dataX dataY, a.document rootX = .ok dataX ∧ a.document rootY = .ok dataY) →
    a.compareOrder x y = .ok none
  /-- Only a node itself stands where it stands. -/
  equal : ∀ x y, a.compareOrder x y = .ok (some .eq) → x = y
  /-- The descendants of a live node go up. -/
  descendants : ∀ top, a.contains top = true → ∃ ids, a.descendants top = .ok ids ∧
    ids.Pairwise fun x y => a.compareOrder x y = .ok (some .lt)

/-- In every reachable arena the comparison is document order. -/
theorem Reachable.documentOrder (reachable : Reachable config a) : a.DocumentOrder where
  list := fullOrder_eq reachable.sound
  position x live := by
    obtain ⟨root, roots, rootLive, member⟩ := reachable.sound.exists_root live
    exact ⟨root, roots, member, nodup_fullOrder reachable.sound rootLive⟩
  sameTree x y root liveX liveY rootX rootY := by
    obtain ⟨top, roots, rootLive, memberX⟩ := reachable.sound.exists_root liveX
    obtain ⟨top', roots', _, memberY⟩ := reachable.sound.exists_root liveY
    cases roots.symm.trans rootX
    cases roots'.symm.trans rootY
    exact compareOrder_eq_compare_idxOf reachable.sound rootLive memberX memberY
  documents x y rootX rootY dataX dataY liveX liveY rootsX rootsY apart documentX documentY := by
    obtain ⟨v, w, rfl, rfl, foundX, foundY, order⟩ :=
      compareOrder_of_root_ne reachable.sound liveX liveY rootsX rootsY apart
    rw [document_eq_ok_iff_of_find? foundX] at documentX
    rw [document_eq_ok_iff_of_find? foundY] at documentY
    rw [order, compareTrees_eq_some_iff.2 ⟨dataX, dataY, documentX, documentY, rfl⟩]
  otherTrees x y rootX rootY liveX liveY rootsX rootsY apart detached := by
    obtain ⟨v, w, rfl, rfl, foundX, foundY, order⟩ :=
      compareOrder_of_root_ne reachable.sound liveX liveY rootsX rootsY apart
    simp only [document_eq_ok_iff_of_find? foundX, document_eq_ok_iff_of_find? foundY] at detached
    rw [order]
    cases trees : compareTrees v w with
    | none => rfl
    | some o =>
      obtain ⟨d, e, documentX, documentY, _⟩ := compareTrees_eq_some_iff.1 trees
      exact absurd ⟨d, e, documentX, documentY⟩ detached
  equal _ _ h := eq_of_compareOrder h
  descendants top live := ⟨a.preorder top, descendants_eq reachable.sound live,
    (pairwise_fullOrder reachable.sound live).sublist (preorderWithin_sublist a _ top)⟩

/-- Document order in an element with a declaration, an attribute and two children. -/
theorem documentOrder_of_element : ((Session.start {}).runAll
    [.createDocument none, .createElement none "a", .appendChild ⟨1⟩ ⟨2⟩, .createText "t",
      .appendChild ⟨2⟩ ⟨3⟩, .addAttribute ⟨2⟩ none "k" "k" "v", .addNamespace ⟨2⟩ none "u",
      .createComment "c", .insertBefore ⟨2⟩ ⟨6⟩ ⟨3⟩]).arena.DocumentOrder :=
  Reachable.documentOrder (Reachable.runAll (s := .start {}) .empty _)

end XmlTree.Arena
