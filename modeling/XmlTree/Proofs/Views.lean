import XmlTree.Proofs.Depth
import XmlTree.Proofs.Order.Full

/-!
# Upwards and downwards

There are two ways to see how nodes hang together.  A climb follows owners upwards, and
a walk follows child lists downwards.  In a sound arena they show the same trees.

The climb is taken as it is recorded in a `Lineage`.  A chain of owners that starts at a
live node ends at its root (`Traces.exists_summit`).  The walk is a part of `fullOrder`,
which lists all that there is a way down to.  What it leaves out are the attributes and
the declarations (`mem_preorderWithin_iff`).  So one node is met below another exactly if
the other is met above it, attributes and declarations aside (`mem_preorder_iff`), and
the walks from the nodes without an owner divide the nodes among them.
-/

namespace XmlTree

open Relation (ReflTransGen TransGen)

variable {a : Arena} {config : Config} {id top x y : NodeId} {node : Node}

/-! ## Upwards -/

namespace Lineage

theorem ids_eq_cons (lineage : Lineage) : lineage.ids = lineage.first :: lineage.ancestors := by
  cases lineage <;> rfl

namespace Traces

variable {lineage : Lineage}

/-- A chain of owners goes from each node to the owner it names. -/
theorem isChain_ids (h : lineage.Traces a) : lineage.ids.IsChain fun x y => a.Owns y x := by
  induction lineage with
  | top id node => exact .singleton id
  | missing id => exact .singleton id
  | step id node above ih =>
    have upper := ih h.2.2
    rw [ids_eq_cons] at upper
    rw [ids, ids_eq_cons]
    exact .cons_cons h.owns_first upper

/-- A chain of owners that starts at a live node ends at a node without an owner, the
only such node on it. -/
theorem exists_summit (consistent : a.Consistent) (h : lineage.Traces a)
    (live : a.contains lineage.first = true) : ∃ summit, lineage.summit = .ok summit ∧
      a.find? summit.root = some summit.node ∧ lineage.ids.getLast? = some summit.root ∧
        ∀ x ∈ lineage.ids, a.owner? x = none ↔ x = summit.root := by
  induction lineage with
  | top id node =>
    refine ⟨⟨id, node, 0⟩, rfl, h.1, rfl, fun x member => ?_⟩
    obtain rfl := List.mem_singleton.1 member
    exact iff_of_true ((Arena.owner?_of_find? h.1).trans h.2) rfl
  | missing id =>
    obtain ⟨node, found⟩ := Arena.contains_iff.1 live
    cases h.symm.trans found
  | step id node above ih =>
    have owns := h.owns_first
    have ownerLive := Arena.contains_iff.2 (consistent.exists_find?_owner owns)
    obtain ⟨summit, climbed, found, last, only⟩ := ih h.2.2 ownerLive
    refine ⟨{ summit with depth := summit.depth + 1 }, ?_, found, ?_, ?_⟩
    · rw [Lineage.summit, climbed]
      rfl
    · rw [ids, ids_eq_cons, List.getLast?_cons_cons, ← ids_eq_cons]
      exact last
    · intro x member
      rcases List.mem_cons.1 member with rfl | higher
      · have rootUnowned := (only summit.root (List.mem_of_getLast? last)).2 rfl
        refine iff_of_false (fun unowned => ?_) fun same => ?_
        · cases owns.symm.trans unowned
        · rw [same] at owns
          cases owns.symm.trans rootUnowned
      · exact only x higher

end Traces

end Lineage

namespace Arena

theorem ids_lineage (a : Arena) (id : NodeId) : (a.lineage id).ids = id :: a.ancestors id := by
  rw [Lineage.ids_eq_cons, first_lineage, ancestors]

/-- The climb from a live node ends at a node without an owner, the only one on it. -/
theorem Sound.exists_summit (h : a.Sound) (live : a.contains x = true) : ∃ summit,
    (a.lineage x).summit = .ok summit ∧ a.find? summit.root = some summit.node ∧
      (x :: a.ancestors x).getLast? = some summit.root ∧
        ∀ y ∈ x :: a.ancestors x, a.owner? y = none ↔ y = summit.root := by
  have start : a.contains (a.lineage x).first = true := by rwa [first_lineage]
  rw [← ids_lineage]
  exact (traces_lineage h.founded x).exists_summit h.toConsistent start

theorem mem_cons_ancestors_iff (founded : a.Founded) :
    top ∈ x :: a.ancestors x ↔ ReflTransGen a.Owns top x := by
  rw [← ids_lineage, mem_ids_lineage_iff founded]

theorem ancestors_of_owns {owner : NodeId} (founded : a.Founded) (owned : a.Owns owner x) :
    a.ancestors x = owner :: a.ancestors owner := by
  obtain ⟨node, found, named⟩ := exists_find?_of_owner? owned
  rw [ancestors, lineage_of_owner founded found named, Lineage.ancestors, ids_lineage]

theorem ancestors_of_unowned (unowned : a.owner? x = none) : a.ancestors x = [] := by
  rw [ancestors]
  cases found : a.find? x with
  | none =>
    rw [lineage_of_missing found]
    rfl
  | some node =>
    rw [lineage_of_top found ((owner?_of_find? found).symm.trans unowned)]
    rfl

theorem mem_ancestors_iff (founded : a.Founded) : top ∈ a.ancestors x ↔ TransGen a.Owns top x := by
  rw [TransGen.tail'_iff]
  constructor
  · intro member
    cases owned : a.owner? x with
    | none =>
      rw [ancestors_of_unowned owned] at member
      cases member
    | some owner =>
      rw [ancestors_of_owns founded owned, mem_cons_ancestors_iff founded] at member
      exact ⟨owner, member, owned⟩
  · intro ⟨owner, reaches, owned⟩
    rw [ancestors_of_owns founded owned, mem_cons_ancestors_iff founded]
    exact reaches

/-- Where the nodes above have the same owners, the same nodes are above. -/
theorem ancestors_congr {a' : Arena} (founded : a.Founded) (founded' : a'.Founded)
    (same : ∀ y ∈ x :: a.ancestors x, a'.owner? y = a.owner? y) :
    a'.ancestors x = a.ancestors x := by
  induction x using founded.induction with
  | _ x ih =>
    have here := same x List.mem_cons_self
    cases owned : a.owner? x with
    | none => rw [ancestors_of_unowned owned, ancestors_of_unowned (here.trans owned)]
    | some owner =>
      have owns : a.Owns owner x := owned
      rw [ancestors_of_owns founded owns] at same ⊢
      rw [ancestors_of_owns founded' (here.trans owned),
        ih owner owns fun y member => same y (.tail _ member)]

/-- The nodes above a node can be taken apart at each of them.  Those on the way to it are the
ones that have it above themselves. -/
theorem exists_ancestors_eq_append (founded : a.Founded) (member : top ∈ x :: a.ancestors x) :
    ∃ inner, x :: a.ancestors x = inner ++ top :: a.ancestors top ∧
      ∀ y ∈ x :: a.ancestors x, y ∈ inner ↔ top ∈ a.ancestors y := by
  induction x using founded.induction with
  | _ x ih =>
    by_cases same : top = x
    · subst same
      refine ⟨[], rfl, fun y above => iff_of_false nofun fun below => ?_⟩
      exact founded.transGen.irrefl.irrefl top (((mem_ancestors_iff founded).1 below).trans_left
        ((mem_cons_ancestors_iff founded).1 above))
    · have above := (List.mem_cons.1 member).resolve_left same
      cases owned : a.owner? x with
      | none =>
        rw [ancestors_of_unowned owned] at above
        cases above
      | some owner =>
        have owns : a.Owns owner x := owned
        have climb := ancestors_of_owns founded owns
        rw [climb] at above ⊢
        obtain ⟨inner, split, inside⟩ := ih owner owns above
        refine ⟨x :: inner, by rw [split, List.cons_append], fun y member => ?_⟩
        rcases List.mem_cons.1 member with rfl | higher
        · exact iff_of_true List.mem_cons_self (climb ▸ above)
        · rw [← inside y higher, List.mem_cons, or_iff_right_iff_imp]
          rintro rfl
          exact (inside y higher).2 (climb ▸ above)

theorem contains_of_mem_ancestors (h : a.Sound) (live : a.contains x = true)
    (member : top ∈ x :: a.ancestors x) : a.contains top = true := by
  obtain ⟨_, way⟩ := exists_wayDown_of_reaches ((mem_cons_ancestors_iff h.founded).1 member)
  exact h.contains_top_of_wayDown live way

/-! ## Downwards -/

/-- The walk meets all that is below a node, attributes and declarations aside. -/
theorem mem_preorderWithin_iff (h : a.Consistent) (fuel : Nat) : x ∈ a.preorderWithin fuel top ↔
    x ∈ a.fullWithin fuel top ∧ (x = top ∨ a.place? x = some .child) := by
  induction fuel generalizing top with
  | zero => exact iff_of_false List.not_mem_nil fun both => List.not_mem_nil both.1
  | succ fuel ih =>
    have filed : x ∈ (a.shelfAt .declarations top).values ∨ x ∈ (a.shelfAt .attributes top).values →
        a.place? x ≠ some .child := by
      rintro (member | member) placed
      · obtain ⟨nsPrefix, entry⟩ := OrderedMap.mem_values_iff.1 member
        have listed : a.Lists top (.declaration nsPrefix) x := entry
        cases (h.lists_iff.1 listed).2.symm.trans placed
      · obtain ⟨name, entry⟩ := OrderedMap.mem_values_iff.1 member
        have listed : a.Lists top (.attr name) x := entry
        cases (h.lists_iff.1 listed).2.symm.trans placed
    rw [preorderWithin, fullWithin, List.mem_cons, List.mem_cons, List.mem_append, List.mem_append,
      List.mem_flatMap, List.mem_flatMap]
    constructor
    · rintro (rfl | ⟨child, listed, member⟩)
      · exact ⟨.inl rfl, .inl rfl⟩
      · obtain ⟨member, same | placed⟩ := ih.1 member
        · exact ⟨.inr (.inr ⟨child, listed, member⟩),
            .inr (same ▸ (h.mem_childrenAt_iff.1 listed).2)⟩
        · exact ⟨.inr (.inr ⟨child, listed, member⟩), .inr placed⟩
    · rintro ⟨rfl | onShelf | ⟨child, listed, member⟩, same | placed⟩
      · exact .inl rfl
      · exact .inl rfl
      · exact .inl same
      · exact absurd placed (filed onShelf)
      · exact .inl same
      · exact .inr ⟨child, listed, ih.2 ⟨member, .inr placed⟩⟩

/-- The walk from a node meets that node, and what has the node above it and is no
attribute and no declaration. -/
theorem mem_preorder_iff (h : a.Sound) : x ∈ a.preorder top ↔
    x = top ∨ a.place? x = some .child ∧ top ∈ a.ancestors x := by
  have below : x ∈ a.fullOrder top ↔ x = top ∨ top ∈ a.ancestors x := by
    rw [mem_fullOrder_iff h, ← eq_comm (a := top), ← List.mem_cons,
      mem_cons_ancestors_iff h.founded]
    exact ⟨fun ⟨_, way⟩ => way.reaches, exists_wayDown_of_reaches⟩
  rw [preorder, mem_preorderWithin_iff h.toConsistent, ← fullOrder, below]
  tauto

theorem nodup_preorder (h : a.Sound) (live : a.contains top = true) : (a.preorder top).Nodup :=
  (nodup_fullOrder h live).sublist (preorderWithin_sublist a _ top)

/-! ## The nodes without an owner -/

/-- The live nodes without an owner, in slot order. -/
def tops (a : Arena) : List NodeId :=
  ((List.range a.slots.size).map NodeId.mk).filter fun id =>
    (a.find? id).any fun node => node.parent.isNone

theorem nodup_tops (a : Arena) : a.tops.Nodup :=
  (List.nodup_range.map fun _ _ => NodeId.mk.inj).filter _

theorem mem_tops_iff : id ∈ a.tops ↔ ∃ node, a.find? id = some node ∧ node.parent = none := by
  rw [tops, List.mem_filter, Option.any_eq_true]
  simp only [Option.isNone_iff_eq_none, and_iff_right_iff_imp, List.mem_map, List.mem_range]
  intro ⟨node, found, _⟩
  exact ⟨id.index, index_lt_of_contains (contains_iff.2 ⟨node, found⟩), rfl⟩

/-! ## Both views -/

theorem parent_eq_some_iff {owner : NodeId} : a.parent id = .ok (some owner) ↔ a.Owns owner id :=
  parent_eq_ok_iff.trans Option.bind_eq_some_iff.symm

theorem parent_eq_ok_of_contains (live : a.contains id = true) :
    a.parent id = .ok (a.owner? id) := by
  obtain ⟨node, found⟩ := contains_iff.1 live
  rw [parent_eq_ok_iff, owner?_of_find? found]
  exact ⟨node, found, rfl⟩

theorem parent_eq_none_iff (live : a.contains id = true) :
    a.parent id = .ok none ↔ a.owner? id = none := by
  rw [parent_eq_ok_of_contains live, Except.ok.injEq]

/-- What has an ancestor is a child unless it is an attribute or a declaration. -/
theorem Sound.place?_eq_child_iff (h : a.Sound) (found : a.find? x = some node)
    (above : top ∈ a.ancestors x) : a.place? x = some .child ↔ node.type.isMapped = false := by
  have chain := (traces_lineage h.founded x).isChain_ids
  rw [ids_lineage] at chain
  cases climb : a.ancestors x with
  | nil =>
    rw [climb] at above
    cases above
  | cons owner rest =>
    rw [climb, List.isChain_cons_cons] at chain
    obtain ⟨place, placed⟩ := h.exists_place?_of_owner? chain.1
    rw [place?_of_find? found] at placed ⊢
    obtain ⟨_, _, kind⟩ := node
    cases kind with
    | document data => cases placed
    | attr data => exact iff_of_false nofun nofun
    | namespaceDecl data => exact iff_of_false nofun nofun
    | element data => exact iff_of_true rfl rfl
    | text value => exact iff_of_true rfl rfl
    | comment value => exact iff_of_true rfl rfl

/-- What the climb and the walk say about each other. -/
structure ViewLaws (a : Arena) : Prop where
  /-- The ancestors of a live node are its parent, the parent of that, and so on. -/
  chain : ∀ n, a.contains n = true →
    (n :: a.ancestors n).IsChain fun x y => a.parent x = .ok (some y)
  /-- The node is not among them and none of them comes twice. -/
  distinct : ∀ n, a.contains n = true → n ∉ a.ancestors n ∧ (a.ancestors n).Nodup
  /-- The root is the last of them, or the node itself where there are none, and the only
  one without a parent. -/
  root : ∀ n, a.contains n = true → ∃ root, a.root n = .ok root ∧
    (n :: a.ancestors n).getLast? = some root ∧
      ∀ x ∈ n :: a.ancestors n, a.parent x = .ok none ↔ x = root
  /-- A node belongs to a document if its root is one. -/
  document : ∀ n, a.contains n = true → ∃ root node, a.root n = .ok root ∧
    a.find? root = some node ∧
      a.ownerDocument n = .ok (if node.type = .document then some root else none)
  /-- The descendants of a live node are the node and what has it among its ancestors, but
  no other attributes and declarations. -/
  descendants : ∀ r, a.contains r = true → ∃ ids, a.descendants r = .ok ids ∧
    ∀ n node, a.find? n = some node →
      (n ∈ ids ↔ n = r ∨ node.type.isMapped = false ∧ r ∈ a.ancestors n)
  /-- The live nodes without a parent, each once. -/
  tops : a.tops.Nodup ∧ ∀ id, id ∈ a.tops ↔ a.parent id = .ok none
  /-- Their descendants are all live nodes, each once, attributes and declarations aside. -/
  partition : ∃ lists, a.tops.mapM a.descendants = .ok lists ∧ ∀ n node,
    a.find? n = some node → node.type.isMapped = false → lists.flatten.count n = 1

/-- Two walks from nodes without an owner have no node in common. -/
theorem Sound.eq_of_mem_preorder (h : a.Sound) (live : a.contains x = true)
    (unownedTop : a.owner? top = none) (unownedY : a.owner? y = none)
    (memberTop : x ∈ a.preorder top) (memberY : x ∈ a.preorder y) : top = y := by
  have above : ∀ z, x ∈ a.preorder z → z ∈ x :: a.ancestors x := fun z member =>
    List.mem_cons.2 (((mem_preorder_iff h).1 member).imp Eq.symm And.right)
  obtain ⟨summit, _, _, _, only⟩ := h.exists_summit live
  rw [(only top (above top memberTop)).1 unownedTop, (only y (above y memberY)).1 unownedY]

/-- The walks from the nodes without an owner meet every other node once. -/
theorem Sound.count_flatMap_preorder (h : a.Sound) (found : a.find? x = some node)
    (unmapped : node.type.isMapped = false) : (a.tops.flatMap a.preorder).count x = 1 := by
  have topLive : ∀ {top}, top ∈ a.tops → a.contains top = true ∧ a.owner? top = none := by
    intro top member
    obtain ⟨node, foundTop, unowned⟩ := mem_tops_iff.1 member
    exact ⟨contains_iff.2 ⟨node, foundTop⟩, (owner?_of_find? foundTop).trans unowned⟩
  have distinct : (a.tops.flatMap a.preorder).Nodup := by
    refine List.nodup_flatMap.2 ⟨fun top member => nodup_preorder h (topLive member).1, ?_⟩
    refine List.Pairwise.imp_of_mem ?_ a.nodup_tops
    intro top top' member member' apart y memberTop memberTop'
    have live : a.contains y = true :=
      contains_of_mem_fullOrder h (topLive member).1
        ((preorderWithin_sublist a _ top).subset memberTop)
    exact apart (h.eq_of_mem_preorder live (topLive member).2 (topLive member').2 memberTop
      memberTop')
  obtain ⟨top, topNode, steps, foundTop, unowned, way⟩ :=
    h.exists_wayDown (contains_iff.2 ⟨node, found⟩)
  have above := List.mem_cons.1 ((mem_cons_ancestors_iff h.founded).2 way.reaches)
  have member : x ∈ a.preorder top := by
    refine (mem_preorder_iff h).2 (above.imp Eq.symm fun higher => ?_)
    exact ⟨(h.place?_eq_child_iff found higher).2 unmapped, higher⟩
  exact List.count_eq_one_of_mem distinct
    (List.mem_flatMap.2 ⟨top, mem_tops_iff.2 ⟨topNode, foundTop, unowned⟩, member⟩)

/-- In every reachable arena the climb and the walk show the same trees. -/
theorem Reachable.viewLaws (reachable : Reachable config a) : a.ViewLaws where
  chain n live := by
    have chain := (traces_lineage reachable.sound.founded n).isChain_ids
    rw [ids_lineage] at chain
    exact chain.imp fun _ _ owned => parent_eq_some_iff.2 owned
  distinct n live := by
    have distinct := (traces_lineage reachable.sound.founded n).nodup_ids reachable.sound.founded
    rwa [ids_lineage, List.nodup_cons] at distinct
  root n live := by
    obtain ⟨summit, climbed, _, last, only⟩ := reachable.sound.exists_summit live
    refine ⟨summit.root, ?_, last, fun x member => ?_⟩
    · rw [root, climbed]
      rfl
    · have liveX := contains_of_mem_ancestors reachable.sound live member
      rw [parent_eq_none_iff liveX, only x member]
  document n live := by
    obtain ⟨summit, climbed, found, _⟩ := reachable.sound.exists_summit live
    refine ⟨summit.root, summit.node, ?_, found, ?_⟩
    · rw [root, climbed]
      rfl
    · rw [ownerDocument, climbed]
      obtain ⟨_, ⟨_, _, kind⟩, _⟩ := summit
      cases kind <;> rfl
  descendants r live := by
    refine ⟨_, descendants_eq reachable.sound live, fun n node found => ?_⟩
    rw [mem_preorder_iff reachable.sound]
    exact or_congr_right
      (and_congr_left fun above => reachable.sound.place?_eq_child_iff found above)
  tops := ⟨a.nodup_tops, fun id => mem_tops_iff.trans parent_eq_ok_iff.symm⟩
  partition := by
    refine ⟨_, mapM_eq_ok (g := a.preorder) fun top member => ?_, fun n node found unmapped => ?_⟩
    · obtain ⟨node, found, _⟩ := mem_tops_iff.1 member
      exact descendants_eq reachable.sound (contains_iff.2 ⟨node, found⟩)
    · rw [← List.flatMap_def]
      exact reachable.sound.count_flatMap_preorder found unmapped

/-- The two views of a document and a detached element that exchanged a node. -/
theorem viewLaws_of_moves : ((Session.start {}).runAll
    [.createDocument none, .createElement none "a", .appendChild ⟨1⟩ ⟨2⟩, .createText "t",
      .appendChild ⟨2⟩ ⟨3⟩, .addAttribute ⟨2⟩ none "k" "k" "v", .createElement none "b",
      .appendChild ⟨5⟩ ⟨3⟩, .removeChild ⟨1⟩ ⟨2⟩, .appendChild ⟨5⟩ ⟨2⟩]).arena.ViewLaws :=
  Reachable.viewLaws (Reachable.runAll (s := .start {}) .empty _)

end Arena

end XmlTree
