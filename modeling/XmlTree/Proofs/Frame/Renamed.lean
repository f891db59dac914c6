import XmlTree.Proofs.Frame.Moves
import XmlTree.Proofs.Order.Full

/-!
# Order under other names

After a change one node may stand where another one stood.  A renaming says for every node
of the old arena which node stands there in the new one.  One node is left out, which owns
nothing: it is the one that has gone elsewhere.

Apart from that node each list goes on under the new names, in the same order, with more
nodes in between perhaps (`Renames.below`).  Going down the tree, so does all that is below
a node (`Renames.fullOrder`).  In both arenas what comes earlier in such a list comes earlier
in document order.  So the nodes that are left compare as the nodes in their place do
(`Renames.compareOrder_eq`).
-/

namespace XmlTree.Arena

variable {a a' : Arena} {σ : NodeId → NodeId} {moved top x y : NodeId}

/-- One arena goes on in another under other names, but for one node. -/
structure Renames (σ : NodeId → NodeId) (moved : NodeId) (a a' : Arena) : Prop where
  /-- What a node lists is listed in its place in the same order. -/
  below : ∀ p, (((a.below p).filter (· ≠ moved)).map σ).Sublist (a'.below (σ p))
  /-- The node that is left out owns nothing. -/
  leaf : a.below moved = []
  /-- What is live and not left out has a live node in its place. -/
  live : ∀ x, a.contains x = true → x ≠ moved → a'.contains (σ x) = true
  /-- The other nodes without an owner stay themselves, and documents keep their numbers. -/
  top : ∀ {x node}, a.find? x = some node → node.parent = none → x ≠ moved → σ x = x ∧
    ∃ node', a'.find? x = some node' ∧ node'.parent = none ∧
      node'.document?.map DocumentData.index = node.document?.map DocumentData.index

/-- Two nodes and the nodes in their place compare alike. -/
def OrderAlike (σ : NodeId → NodeId) (a a' : Arena) (x y : NodeId) : Prop :=
  ∃ o, a.compareOrder x y = .ok (some o) ∧ a'.compareOrder (σ x) (σ y) = .ok (some o)

instance : Std.Symm (OrderAlike σ a a') :=
  ⟨fun _ _ ⟨o, order, order'⟩ => ⟨o.swap, compareOrder_swap order, compareOrder_swap order'⟩⟩

namespace Renames

/-- The node that is left out has nothing below it, so it can be skipped in the lists as well
as in what is below them. -/
theorem filter_flatMap_fullOrder (h : Renames σ moved a a') (sound : a.Sound)
    (ids : List NodeId) : (ids.flatMap a.fullOrder).filter (· ≠ moved)
      = (ids.filter (· ≠ moved)).flatMap fun x => (a.fullOrder x).filter (· ≠ moved) := by
  have gone : (a.fullOrder moved).filter (· ≠ moved) = [] := by
    simp [fullOrder_eq_flatMap_below sound, h.leaf]
  induction ids with
  | nil => rfl
  | cons x rest ih =>
    rw [List.flatMap_cons, List.filter_append, ih]
    by_cases same : x = moved
    · rw [List.filter_cons_of_neg (by simpa using same), same, gone, List.nil_append]
    · rw [List.filter_cons_of_pos (by simpa using same), List.flatMap_cons]

/-- All that is below a node is below the node in its place, in the same order. -/
theorem fullOrder (h : Renames σ moved a a') (sound : a.Sound) (sound' : a'.Sound)
    (other : top ≠ moved) :
    (((a.fullOrder top).filter (· ≠ moved)).map σ).Sublist (a'.fullOrder (σ top)) := by
  induction top using sound.founded.below.induction with
  | _ top ih =>
    have lower : ∀ x ∈ (a.below top).filter (· ≠ moved),
        (((a.fullOrder x).filter (· ≠ moved)).map σ).Sublist (a'.fullOrder (σ x)) := by
      intro x member
      obtain ⟨listed, apart⟩ := List.mem_filter.1 member
      exact ih x (sound.mem_below_iff.1 listed) (of_decide_eq_true apart)
    rw [fullOrder_eq_flatMap_below sound, fullOrder_eq_flatMap_below sound',
      List.filter_cons_of_pos (by simpa using other), List.map_cons,
      h.filter_flatMap_fullOrder sound, List.map_flatMap]
    refine .cons_cons _ ((List.Sublist.flatMap_right _ lower).trans ?_)
    rw [← List.flatMap_map σ a'.fullOrder]
    exact (h.below top).flatMap _

/-- The nodes in the list of one root compare as those in their place do. -/
theorem orderAlike (h : Renames σ moved a a') (sound : a.Sound) (sound' : a'.Sound)
    (live : a.contains top = true) (other : top ≠ moved) (memberX : x ∈ a.fullOrder top)
    (memberY : y ∈ a.fullOrder top) (otherX : x ≠ moved) (otherY : y ≠ moved) :
    OrderAlike σ a a' x y := by
  have order := (pairwise_fullOrder sound live).filter (· ≠ moved)
  have order' := List.pairwise_map.1
    ((pairwise_fullOrder sound' (h.live top live other)).sublist (h.fullOrder sound sound' other))
  have alike : ((a.fullOrder top).filter (· ≠ moved)).Pairwise (OrderAlike σ a a') :=
    (order.and order').imp fun both => ⟨.lt, both⟩
  have itself : ∀ z ∈ (a.fullOrder top).filter (· ≠ moved), OrderAlike σ a a' z z := by
    intro z member
    obtain ⟨member, apart⟩ := List.mem_filter.1 member
    have liveZ := contains_of_mem_fullOrder sound live member
    exact ⟨.eq, compareOrder_self.2 ⟨rfl, liveZ⟩,
      compareOrder_self.2 ⟨rfl, h.live z liveZ (of_decide_eq_true apart)⟩⟩
  exact alike.forall_of_forall itself (List.mem_filter.2 ⟨memberX, decide_eq_true otherX⟩)
    (List.mem_filter.2 ⟨memberY, decide_eq_true otherY⟩)

/-- A live node that is not left out has a root, and the node in its place has the same. -/
theorem exists_root (h : Renames σ moved a a') (sound : a.Sound) (sound' : a'.Sound)
    (live : a.contains x = true) (other : x ≠ moved) : ∃ root node node',
      a.find? root = some node ∧ a'.find? root = some node' ∧ root ≠ moved ∧
      x ∈ a.fullOrder root ∧ a.root x = .ok root ∧ a'.root (σ x) = .ok root ∧
      node'.document?.map DocumentData.index = node.document?.map DocumentData.index := by
  obtain ⟨root, node, steps, found, unowned, way⟩ := sound.exists_wayDown live
  have member := (mem_fullOrder_iff sound).2 ⟨steps, way⟩
  have apart : root ≠ moved := by
    intro same
    rw [same, fullOrder_eq_flatMap_below sound, h.leaf] at member
    exact other (List.mem_singleton.1 member)
  obtain ⟨stays, node', found', unowned', number⟩ := h.top found unowned apart
  have member' : σ x ∈ a'.fullOrder root := by
    have carried := (h.fullOrder sound sound' apart).subset
      (List.mem_map_of_mem (List.mem_filter.2 ⟨member, decide_eq_true other⟩))
    rwa [stays] at carried
  obtain ⟨steps', way'⟩ := (mem_fullOrder_iff sound').1 member'
  exact ⟨root, node, node', found, found', apart, member,
    root_of_descent (descent_of_wayDown sound.founded (descent_of_top found unowned) way),
    root_of_descent (descent_of_wayDown sound'.founded (descent_of_top found' unowned') way'),
    number⟩

/-- Live nodes that are not left out compare as the nodes in their place do. -/
theorem compareOrder_eq (h : Renames σ moved a a') (sound : a.Sound) (sound' : a'.Sound)
    (liveX : a.contains x = true) (liveY : a.contains y = true) (otherX : x ≠ moved)
    (otherY : y ≠ moved) : a'.compareOrder (σ x) (σ y) = a.compareOrder x y := by
  obtain ⟨rootX, nodeX, nodeX', foundX, foundX', apartX, memberX, rootsX, rootsX', numberX⟩ :=
    h.exists_root sound sound' liveX otherX
  obtain ⟨rootY, nodeY, nodeY', foundY, foundY', _, memberY, rootsY, rootsY', numberY⟩ :=
    h.exists_root sound sound' liveY otherY
  by_cases same : rootX = rootY
  · subst same
    obtain ⟨o, order, order'⟩ := h.orderAlike sound sound' (contains_iff.2 ⟨nodeX, foundX⟩) apartX
      memberX memberY otherX otherY
    rw [order, order']
  · obtain ⟨v, w, rfl, rfl, holdsV, holdsW, order⟩ :=
      compareOrder_of_root_ne sound liveX liveY rootsX rootsY same
    obtain ⟨v', w', sameV, sameW, holdsV', holdsW', order'⟩ := compareOrder_of_root_ne sound'
      (h.live x liveX otherX) (h.live y liveY otherY) rootsX' rootsY' same
    obtain rfl := Option.some.inj (foundX.symm.trans holdsV)
    obtain rfl := Option.some.inj (foundY.symm.trans holdsW)
    obtain rfl := Option.some.inj (foundX'.symm.trans holdsV')
    obtain rfl := Option.some.inj (foundY'.symm.trans holdsW')
    rw [order, order', Shifts.compareTrees_eq, Shifts.compareTrees_eq, numberX, numberY, sameV,
      sameW]

end Renames

end XmlTree.Arena
