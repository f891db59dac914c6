import Mathlib.Logic.Function.Basic
import XmlTree.Proofs.Frame.Moves
import XmlTree.Proofs.Independence.Alike

/-!
# What a move leaves in every slot

A move gives one child another owner and changes at most two child lists.  `Rehung` says
this slot by slot: what owner the child has got and what every list has become, and that
nothing else in any slot is different.

The lists are said without looking at positions.  The list that the child leaves is the old
one without the child, and so is the list that it comes into, with the child then put at
the end or right before the reference.  Since no list has anything twice, it does not
matter in which of them the child stood before, or on which side of the reference.

The frame comes from `Shifts`: nodes that agree when bare differ in owner and children
only (`Node.eq_of_bare`).
-/

namespace XmlTree

/-! ## Nodes that agree when bare -/

theorem NodeKind.mapChildren_children (kind : NodeKind) :
    (kind.mapChildren fun _ => kind.children) = kind := by
  cases kind <;> rfl

theorem NodeKind.mapChildren_mapChildren (kind : NodeKind) (f g : List NodeId → List NodeId) :
    (kind.mapChildren f).mapChildren g = kind.mapChildren fun ids => g (f ids) := by
  cases kind <;> rfl

/-- Of two nodes that agree when bare, the one is the other with its own owner and its own
children. -/
theorem Node.eq_of_bare {node node' : Node} (same : node'.bare = node.bare) :
    node' = (node.mapChildren fun _ => node'.children).withParent node'.parent := by
  obtain ⟨id, parent, kind⟩ := node
  obtain ⟨id', parent', kind'⟩ := node'
  have ids : id' = id := congrArg Node.id same
  have kinds : (kind'.mapChildren fun _ => []) = kind.mapChildren fun _ => [] :=
    congrArg Node.kind same
  subst ids
  refine congrArg (Node.mk id' parent') ?_
  calc kind'
    _ = (kind'.mapChildren fun _ => []).mapChildren fun _ => kind'.children := by
      rw [NodeKind.mapChildren_mapChildren, NodeKind.mapChildren_children]
    _ = (kind.mapChildren fun _ => []).mapChildren fun _ => kind'.children := by rw [kinds]
    _ = kind.mapChildren fun _ => kind'.children := NodeKind.mapChildren_mapChildren _ _ _

/-! ## Lists without the child -/

theorem erase_eq_filter_ne {ids : List NodeId} (nodup : ids.Nodup) (child : NodeId) :
    ids.erase child = ids.filter (· ≠ child) := by
  rw [nodup.erase_eq_filter]
  exact List.filter_congr fun x _ => Bool.eq_iff_iff.2 (by simp)

theorem insertIdx_append_length (before after : List NodeId) (child : NodeId) :
    (before ++ after).insertIdx before.length child = before ++ child :: after := by
  induction before with
  | nil => exact List.insertIdx_zero
  | cons first rest ih =>
    rw [List.cons_append, List.length_cons, List.insertIdx_succ_cons, ih, List.cons_append]

/-- The place that is counted for an insertion is right before the reference, once the child
is out of the way. -/
theorem exists_insertIdx_filter_ne {ids : List NodeId} {child reference : NodeId}
    (nodup : ids.Nodup) (member : reference ∈ ids) (other : child ≠ reference) :
    ∃ before after, ids.filter (· ≠ child) = before ++ reference :: after ∧
      (ids.filter (· ≠ child)).insertIdx
          ((ids.takeWhile (· ≠ reference)).erase child).length child
        = before ++ child :: reference :: after := by
  obtain ⟨before, after, rfl, first⟩ := List.eq_append_cons_of_mem member
  have nodupBefore : before.Nodup := nodup.sublist (List.sublist_append_left _ _)
  have parts : (before ++ reference :: after).filter (· ≠ child)
      = before.filter (· ≠ child) ++ reference :: after.filter (· ≠ child) := by
    rw [List.filter_append, List.filter_cons_of_pos (by simpa using other.symm)]
  refine ⟨_, _, parts, ?_⟩
  rw [takeWhile_ne_append first, erase_eq_filter_ne nodupBefore, parts, insertIdx_append_length]

namespace Arena

variable {a a' : Arena} {parent child reference x : NodeId} {owner : Option NodeId}
variable {config : Config} {lists : NodeId → List NodeId}

/-- The child lists once a child has left its owner. -/
def listsWithout (a : Arena) (child x : NodeId) : List NodeId :=
  if a.owner? child = some x then (a.childrenAt x).filter (· ≠ child) else a.childrenAt x

/-- The second arena is the first with one child under another owner and with the given
child lists. -/
structure Rehung (a : Arena) (child : NodeId) (owner : Option NodeId)
    (lists : NodeId → List NodeId) (a' : Arena) : Prop where
  /-- Every slot holds what it held, beside the owner of the child and the lists. -/
  slots : ∀ x, a'.find? x = (a.find? x).map fun node =>
    (node.mapChildren fun _ => lists x).withParent (if x = child then owner else node.parent)
  /-- Every node lists the children that are given for it. -/
  lists : ∀ x, a'.childrenAt x = lists x
  /-- There are as many slots. -/
  size : a'.slots.size = a.slots.size
  /-- As many nodes are counted. -/
  live : a'.live = a.live
  /-- The settings are the same. -/
  config : a'.config = a.config

/-- After a shift every slot is as it was beside owner and lists. -/
theorem Shifts.rehung (h : Shifts child a a') (relinks : a.Relinks a')
    (size : a'.slots.size = a.slots.size) (owned : a'.owner? child = owner)
    (listed : ∀ x, a'.childrenAt x = lists x) : a.Rehung child owner lists a' where
  slots x := by
    cases found : a.find? x with
    | none => exact h.find?_eq_none found
    | some node =>
      obtain ⟨node', found', same⟩ := h.exists_find? found
      have children : node'.children = lists x := by rw [← childrenAt_of_find? found', listed]
      have named : node'.parent = if x = child then owner else node.parent := by
        rw [← owner?_of_find? found', ← owner?_of_find? found]
        split
        next here => rw [here, owned]
        next other => exact h.owners x other
      rw [found', Option.map_some, ← children, ← named, ← Node.eq_of_bare same]
  lists := listed
  size := size
  live := relinks.live
  config := relinks.config

/-! ## Taking out and putting in -/

theorem size_unlink (a : Arena) (child : NodeId) : (a.unlink child).slots.size = a.slots.size := by
  cases owned : a.owner? child with
  | none => rw [unlink_of_unowned owned]
  | some owner => rw [unlink_of_owner owned, size_update, size_update]

theorem size_link (a : Arena) (parent child : NodeId) (place : List NodeId → List NodeId) :
    (a.link parent child place).slots.size = a.slots.size := by
  rw [link, size_update, size_update]

theorem childrenAt_unlink_eq_listsWithout (h : a.Consistent) (child x : NodeId) :
    (a.unlink child).childrenAt x = a.listsWithout child x := by
  rw [childrenAt_unlink h child, listsWithout]
  split
  next owned => exact erase_eq_filter_ne (h.distinct x) child
  next other => exact List.erase_of_not_mem (h.not_mem_childrenAt other)

theorem Consistent.rehung_unlink (h : a.Consistent) (child : NodeId) :
    a.Rehung child none (a.listsWithout child) (a.unlink child) :=
  (shifts_unlink h child).rehung (relinks_unlink h child) (size_unlink a child)
    (by rw [owner?_unlink, if_pos rfl]) (childrenAt_unlink_eq_listsWithout h child)

/-- A child that has been checked is put into the list of its new parent, from which it has
been taken out if it stood there. -/
theorem Consistent.rehung_move (h : a.Consistent) {place : List NodeId → List NodeId}
    (checked : a.checkInsertable parent child = .ok ())
    (adds : ∀ ids, (place ids).filter (· ≠ child) = ids.filter (· ≠ child)) :
    a.Rehung child (some parent)
      (Function.update (a.listsWithout child) parent
        (place ((a.childrenAt parent).filter (· ≠ child))))
      ((a.unlink child).link parent child place) := by
  obtain ⟨container, placed, _⟩ := checkInsertable_eq_ok_iff.1 checked
  have relinks := relinks_unlink h child
  have container' := relinks.isContainer container
  have placed' := (relinks.place child).trans placed
  have again := relinks_link (g := place) (h.unlink placed) container' placed'
  refine (shifts_move h checked adds).rehung (relinks.trans again) ?_ ?_ fun x => ?_
  · rw [size_link, size_unlink]
  · rw [owner?_link (contains_of_place? placed'), if_pos rfl]
  · rw [childrenAt_link container']
    split
    next same =>
      subst same
      rw [Function.update_self, childrenAt_unlink h child, erase_eq_filter_ne (h.distinct parent)]
    next other =>
      rw [Function.update_of_ne (Ne.symm other), childrenAt_unlink_eq_listsWithout h child]

/-! ## The laws of moves -/

/-- What the edits of child lists do when they succeed. -/
structure MoveLaws (a : Arena) : Prop where
  /-- A child is appended: it comes last in the list of the parent, and is nowhere else. -/
  append : ∀ parent child a', Edit.appendChild parent child a = .ok () a' →
    a.Rehung child (some parent) (Function.update (a.listsWithout child) parent
      ((a.childrenAt parent).filter (· ≠ child) ++ [child])) a'
  /-- A child is inserted: it comes right before the reference, and is nowhere else. -/
  insert : ∀ parent child reference a', child ≠ reference →
    Edit.insertBefore parent child reference a = .ok () a' → ∃ before after,
      (a.childrenAt parent).filter (· ≠ child) = before ++ reference :: after ∧
      a.Rehung child (some parent) (Function.update (a.listsWithout child) parent
        (before ++ child :: reference :: after)) a'
  /-- A child is removed: it had the parent, and has none. -/
  remove : ∀ parent child a', Edit.removeChild parent child a = .ok () a' →
    a.owner? child = some parent ∧ a.Rehung child none (a.listsWithout child) a'

/-- In every reachable arena a move changes what it says and nothing else. -/
theorem Reachable.moveLaws (reachable : Reachable config a) : a.MoveLaws where
  append parent child a' ran := by
    have h := reachable.sound.toConsistent
    obtain ⟨checked, rfl⟩ := checked_of_appendChild h ran
    exact h.rehung_move checked fun ids => filter_append_singleton_ne ids child
  insert parent child reference a' other ran := by
    have h := reachable.sound.toConsistent
    obtain ⟨refers, ⟨same, _⟩ | ⟨_, checked, rfl⟩⟩ := checked_of_insertBefore h ran
    · exact absurd same other
    · obtain ⟨before, after, parts, put⟩ :=
        exists_insertIdx_filter_ne (h.distinct parent) (refers.mem_childrenAt h) other
      refine ⟨before, after, parts, ?_⟩
      rw [← put]
      exact h.rehung_move checked fun ids => filter_insertIdx_ne ids _ child
  remove parent child a' ran := by
    have h := reachable.sound.toConsistent
    obtain ⟨placed, owned, rfl⟩ := placed_of_removeChild h ran
    exact ⟨owned, h.rehung_unlink child⟩

/-- An element with three children. -/
def threeSiblings : Arena :=
  ((Session.start {}).runAll
    [.createElement none "r", .createElement none "a", .createElement none "b", .createText "t",
      .appendChild ⟨1⟩ ⟨2⟩, .appendChild ⟨1⟩ ⟨3⟩, .appendChild ⟨1⟩ ⟨4⟩]).arena

/-- The laws in an arena where a child moves to the end of its list, moves before one of its
siblings, and leaves. -/
theorem moveLaws_of_siblings :
    (((Edit.appendChild ⟨1⟩ ⟨2⟩).outcome threeSiblings).1 = .ok () ∧
      ((Edit.insertBefore ⟨1⟩ ⟨2⟩ ⟨4⟩).outcome threeSiblings).1 = .ok () ∧
      ((Edit.removeChild ⟨1⟩ ⟨2⟩).outcome threeSiblings).1 = .ok ()) ∧ threeSiblings.MoveLaws :=
  ⟨by decide +kernel, Reachable.moveLaws (Reachable.runAll (s := .start {}) .empty _)⟩

-- The child stands before the reference, so the reference moves up when the child leaves.
example : ((Edit.insertBefore ⟨1⟩ ⟨2⟩ ⟨4⟩).outcome threeSiblings).2.childrenAt ⟨1⟩
    = [⟨3⟩, ⟨2⟩, ⟨4⟩] := by
  decide +kernel

end Arena

end XmlTree
