import XmlTree.Proofs.Frame.Rehung
import XmlTree.Proofs.Independence.Commute
import XmlTree.Proofs.Insertion
import XmlTree.Proofs.Siblings

/-!
# Removal and insertion undo each other

A child that is removed can be put back where it was, and one that had no owner can be taken
out again.  Both ways the arena is afterwards the one it was before, slot by slot.

Each of the two edits changes the owner of the child and child lists, and nothing else
(`Rehung`).  So does one after the other (`Rehung.trans`), and if that gives the child the
owner and all lists the children they had at first, then nothing has changed at all
(`Rehung.eq_self`).

When a child is put back, it is checked again.  There is room for it: without the child the
way from the top to the parent and the longest chain of child links below the child are what
they were, and with the child between them they made up a way in the arena before, which no
edit has let grow too long (`Sound.accepts_unlink`).
-/

namespace XmlTree

/-- Makes `child` the child of `parent` that comes right before the given sibling, or the last
one if none is given. -/
def Edit.putBefore (parent child : NodeId) : Option NodeId → Edit Unit
  | some reference => insertBefore parent child reference
  | none => appendChild parent child

namespace Arena

variable {a a' b : Arena} {parent child x : NodeId} {before after : List NodeId}
variable {owner owner' : Option NodeId} {lists lists' : NodeId → List NodeId} {config : Config}

/-! ## Nothing has changed -/

/-- Of two changes to one child and to the lists the second one counts. -/
theorem Rehung.trans (first : a.Rehung child owner lists b)
    (second : b.Rehung child owner' lists' a') : a.Rehung child owner' lists' a' where
  slots x := by
    rw [second.slots, first.slots, Option.map_map]
    refine congrArg (Option.map · _) (funext fun node => ?_)
    show Node.mk node.id (if x = child then owner' else if x = child then owner else node.parent)
      ((node.kind.mapChildren _).mapChildren _) = Node.mk node.id _ (node.kind.mapChildren _)
    rw [NodeKind.mapChildren_mapChildren]
    split <;> rfl
  lists := second.lists
  size := second.size.trans first.size
  live := second.live.trans first.live
  config := second.config.trans first.config

/-- A child under its own owner, and the lists as they are: that is the arena itself. -/
theorem Rehung.eq_self (h : a.Rehung child (a.owner? child) a.childrenAt a') : a' = a := by
  refine SameNodes.eq ⟨h.size, h.config, fun x => ?_⟩ h.live
  rw [h.slots]
  cases found : a.find? x with
  | none => rfl
  | some node =>
    have named : (if x = child then a.owner? child else node.parent) = node.parent := by
      split
      next same => rw [← same, owner?_of_find? found]
      next other => rfl
    rw [Option.map_some, named, childrenAt_of_find? found]
    exact congrArg (fun kind => some (Node.mk node.id node.parent kind))
      (NodeKind.mapChildren_children node.kind)

/-! ## Children -/

theorem Consistent.removeChild_of_refers (h : a.Consistent) (refers : a.Refers parent child) :
    Edit.removeChild parent child a = .ok () (a.unlink child) := by
  obtain ⟨node, found, unmapped, owned⟩ := refers
  have runs := removeChild_eq h parent child
  simp only [found] at runs
  rw [runs, if_neg (Bool.eq_false_iff.1 unmapped), if_pos owned]

/-! ## Putting a child back -/

/-- A child that has been taken out has no owner, so no way leads over it, and the other ways
were there before. -/
theorem WayDown.of_unlink {top : NodeId} {steps : List NodeId}
    (way : (a.unlink child).WayDown top steps x) : a.WayDown top steps x := by
  have absent : child ∉ steps := by
    intro member
    obtain ⟨owner, _, _, _, _, owns, _⟩ := way.split member
    rw [Owns, owner?_unlink, if_pos rfl] at owns
    cases owns
  refine way.congr fun y member => ?_
  rw [owner?_unlink, if_neg (ne_of_mem_of_not_mem member absent).symm]

/-- There is room for a child where it has been taken out. -/
theorem Sound.accepts_unlink (h : a.Sound) (shallow : a.Shallow a.config.maxDepth)
    (listed : child ∈ a.childrenAt parent) : (a.unlink child).Accepts parent child := by
  obtain ⟨owned, placed⟩ := h.mem_childrenAt_iff.1 listed
  have h' : (a.unlink child).Sound := (Change.remove child placed).sound h
  have relinks := relinks_unlink h.toConsistent child
  have placed' : (a.unlink child).place? child = some .child := (relinks.place child).trans placed
  have may : (a.unlink child).MayHold parent child :=
    { container := relinks.isContainer (h.isContainer_of_owner? owned)
      insertable := Arena.place?_eq_child_iff.1 placed'
      other := fun same => h.founded.transGen.irrefl.irrefl child (.single (same ▸ owned))
      apart := fun above => by
        obtain ⟨steps, way⟩ := exists_wayDown_of_reaches
          ((mem_ancestors_iff h'.founded).1 above).to_reflTransGen
        exact h.founded.transGen.irrefl.irrefl child (.tail' way.of_unlink.reaches owned) }
  obtain ⟨d, deep⟩ := h'.exists_hasDepth may.contains_parent
  obtain ⟨n, high⟩ := h'.exists_hasHeight may.contains_child
  refine ⟨may, d, n, deep, high, ?_⟩
  obtain ⟨top, before, _, upper, rfl⟩ := deep
  obtain ⟨⟨after, links, rfl⟩, _⟩ := high
  obtain ⟨x, lower, below⟩ := links.exists_wayDown h'.toConsistent
  have placedEnd : (a.unlink child).place? x = some .child :=
    List.forall_mem_cons (p := fun y => (a.unlink child).place? y = some .child).2
      ⟨placed', below⟩ x lower.end_mem
  have whole := upper.of_unlink.append (.down owned lower.of_unlink)
  have bound := shallow top x _ whole ((relinks.place x).symm.trans placedEnd)
  rw [List.length_append, List.length_cons] at bound
  rw [relinks.config]
  omega

/-- What stands before and after the child in its list, once it has been taken out. -/
theorem Consistent.childrenAt_unlink_of_append (h : a.Consistent)
    (parts : a.childrenAt parent = before ++ child :: after) :
    (a.unlink child).childrenAt parent = before ++ after ∧ child ∉ before ++ after := by
  have distinct := h.distinct parent
  rw [parts, List.perm_middle.nodup_iff, List.nodup_cons] at distinct
  refine ⟨?_, distinct.1⟩
  rw [childrenAt_unlink h child, parts, List.erase_append_right _ fun member =>
    distinct.1 (List.mem_append_left _ member), List.erase_cons_head]

/-- The list that the child came from is made what it was, and so is everything else. -/
theorem Sound.link_unlink_eq (h : a.Sound) {place : List NodeId → List NodeId}
    (parts : a.childrenAt parent = before ++ child :: after)
    (checked : (a.unlink child).checkInsertable parent child = .ok ())
    (adds : ∀ ids, (place ids).filter (· ≠ child) = ids.filter (· ≠ child))
    (puts : place (before ++ after) = before ++ child :: after) :
    ((a.unlink child).unlink child).link parent child place = a := by
  obtain ⟨owned, placed⟩ := h.mem_childrenAt_iff.1 (mem_childrenAt_of_append parts)
  obtain ⟨others, absent⟩ := h.childrenAt_unlink_of_append parts
  have unowned : (a.unlink child).owner? child = none := by rw [owner?_unlink, if_pos rfl]
  have lists : Function.update ((a.unlink child).listsWithout child) parent
      (place (((a.unlink child).childrenAt parent).filter (· ≠ child))) = a.childrenAt := by
    funext x
    by_cases same : x = parent
    · subst same
      have rest : (before ++ after).filter (· ≠ child) = before ++ after :=
        List.filter_eq_self.2 fun y member => decide_eq_true (ne_of_mem_of_not_mem member absent)
      rw [Function.update_self, others, rest, puts, parts]
    · have elsewhere : a.owner? child ≠ some x := fun names =>
        same (Option.some.inj (names.symm.trans owned))
      rw [Function.update_of_ne same, listsWithout, unowned, if_neg (Option.some_ne_none x).symm,
        childrenAt_unlink h.toConsistent child,
        List.erase_of_not_mem (h.not_mem_childrenAt elsewhere)]
  have twice := (h.rehung_unlink child).trans ((h.unlink placed).rehung_move checked adds)
  rw [lists, ← owned] at twice
  exact twice.eq_self

/-- A removed child is put back before the sibling that came after it, or at the end. -/
theorem Sound.putBefore_unlink (h : a.Sound) (shallow : a.Shallow a.config.maxDepth)
    (parts : a.childrenAt parent = before ++ child :: after) :
    Edit.putBefore parent child after.head? (a.unlink child) = .ok () a := by
  have listed : child ∈ a.childrenAt parent := mem_childrenAt_of_append parts
  have h' : (a.unlink child).Sound :=
    (Change.remove child (h.mem_childrenAt_iff.1 listed).2).sound h
  have checked := h'.checkInsertable_eq_ok_iff_accepts.2 (h.accepts_unlink shallow listed)
  obtain ⟨others, absent⟩ := h.childrenAt_unlink_of_append parts
  cases after with
  | nil =>
    show Edit.appendChild parent child (a.unlink child) = .ok () a
    rw [appendChild_eq h'.toConsistent, checked]
    refine congrArg (EStateM.Result.ok ()) (h.link_unlink_eq parts checked ?_ ?_)
    · exact fun ids => filter_append_singleton_ne ids child
    · rw [List.append_nil]
  | cons reference after =>
    show Edit.insertBefore parent child reference (a.unlink child) = .ok () a
    have distinct := h'.distinct parent
    rw [others, List.perm_middle.nodup_iff, List.nodup_cons] at distinct
    have apart : reference ∉ before := fun member => distinct.1 (List.mem_append_left _ member)
    have other : child ≠ reference := fun same =>
      absent (same ▸ List.mem_append_right _ List.mem_cons_self)
    have refers : (a.unlink child).Refers parent reference :=
      h'.refers_of_mem (others ▸ List.mem_append_right _ List.mem_cons_self)
    rw [h'.insertBefore_of_refers refers, if_neg other, checked, others, takeWhile_ne_append apart,
      List.erase_of_not_mem fun member => absent (List.mem_append_left _ member)]
    refine congrArg (EStateM.Result.ok ()) (h.link_unlink_eq parts checked ?_ ?_)
    · exact fun ids => filter_insertIdx_ne ids _ child
    · exact insertIdx_append_length before (reference :: after) child

/-! ## Taking a child out again -/

theorem Sound.of_steps (h : a.Sound) {α : Type} {edit : Edit α} {answer : α}
    (steps : edit.Steps a) (ran : edit a = .ok answer b) : b.Sound := by
  rw [Edit.Steps, ran] at steps
  exact h.changes steps

/-- A child that had no owner before an insertion is taken out again. -/
theorem Sound.removeChild_link (h : a.Sound) {place : List NodeId → List NodeId}
    (checked : a.checkInsertable parent child = .ok ()) (unowned : a.owner? child = none)
    (adds : ∀ ids, (place ids).filter (· ≠ child) = ids.filter (· ≠ child))
    (h' : ((a.unlink child).link parent child place).Consistent) :
    Edit.removeChild parent child ((a.unlink child).link parent child place) = .ok () a := by
  have moved := h.rehung_move checked adds
  have shifts := shifts_move h.toConsistent checked adds
  generalize (a.unlink child).link parent child place = b at moved shifts h'
  obtain ⟨_, placed, _⟩ := checkInsertable_eq_ok_iff.1 checked
  obtain ⟨node, found, insertable⟩ := Arena.place?_eq_child_iff.1 placed
  have found' := moved.slots child
  rw [found, Option.map_some, if_pos rfl] at found'
  have refers : b.Refers parent child := by
    refine ⟨_, found', NodeType.isMapped_of_isChild ?_, rfl⟩
    exact (congrArg NodeType.isChild (node.kind.type_mapChildren _)).trans insertable
  have lists : b.listsWithout child = a.childrenAt := by
    funext x
    rw [← childrenAt_unlink_eq_listsWithout h', childrenAt_unlink h' child,
      erase_eq_filter_ne (h'.distinct x), shifts.siblings, List.filter_eq_self]
    intro y member
    refine decide_eq_true (ne_of_mem_of_not_mem member (h.not_mem_childrenAt ?_))
    rw [unowned]
    exact nofun
  have twice := moved.trans (h'.rehung_unlink child)
  rw [lists, ← unowned] at twice
  rw [h'.removeChild_of_refers refers, twice.eq_self]

/-! ## The laws of undoing -/

/-- Which edits of child lists undo each other. -/
structure UndoLaws (a : Arena) : Prop where
  /-- A child of a parent has a next sibling or none, and can be removed.  Then it can be put
  back before that sibling, or at the end, and nothing has changed. -/
  remove : ∀ parent child, child ∈ a.childrenAt parent → ∃ next b,
    a.followingSibling child = .ok next ∧ Edit.removeChild parent child a = .ok () b ∧
      Edit.putBefore parent child next b = .ok () a
  /-- A node without a parent that has been put anywhere can be removed from there, and nothing
  has changed. -/
  put : ∀ parent child next b, a.parent child = .ok none →
    Edit.putBefore parent child next a = .ok () b → Edit.removeChild parent child b = .ok () a

/-- In every reachable arena removal and insertion undo each other. -/
theorem Reachable.undoLaws (reachable : Reachable config a) : a.UndoLaws where
  remove parent child listed := by
    have h := reachable.sound
    have shallow : a.Shallow a.config.maxDepth := by
      rw [reachable.config_eq]
      exact reachable.shallow
    obtain ⟨before, after, parts⟩ := List.append_of_mem listed
    exact ⟨after.head?, a.unlink child, h.followingSibling_of_append parts,
      h.removeChild_of_refers (h.refers_of_mem listed), h.putBefore_unlink shallow parts⟩
  put parent child next b unowned ran := by
    have h := reachable.sound
    have free : a.owner? child = none := by
      obtain ⟨node, found, none⟩ := parent_eq_ok_iff.1 unowned
      exact (owner?_of_find? found).trans none
    cases next with
    | none =>
      have h' := h.of_steps (Edit.steps_appendChild h.toConsistent parent child) ran
      obtain ⟨checked, rfl⟩ := checked_of_appendChild h.toConsistent ran
      exact h.removeChild_link checked free (fun ids => filter_append_singleton_ne ids child)
        h'.toConsistent
    | some reference =>
      have h' := h.of_steps (Edit.steps_insertBefore h.toConsistent parent child reference) ran
      obtain ⟨refers, ⟨rfl, _⟩ | ⟨_, checked, rfl⟩⟩ := checked_of_insertBefore h.toConsistent ran
      · -- A node without a parent is no reference.
        obtain ⟨node, found, _, owned⟩ := refers
        cases free.symm.trans ((owner?_of_find? found).trans owned)
      · exact h.removeChild_link checked free (fun ids => filter_insertIdx_ne ids _ child)
          h'.toConsistent

/-- Next to the depth limit: the element in the middle of a list and the text that is the only
child of another element can be removed and put back. -/
theorem undoLaws_of_limit : ((Session.start { maxDepth := 3 }).runAll
    [.createDocument none, .createElement none "r", .appendChild ⟨1⟩ ⟨2⟩, .createText "s",
      .createElement none "e", .createComment "c", .appendChild ⟨2⟩ ⟨3⟩, .appendChild ⟨2⟩ ⟨4⟩,
      .appendChild ⟨2⟩ ⟨5⟩, .createText "t", .appendChild ⟨4⟩ ⟨6⟩]).arena.UndoLaws :=
  Reachable.undoLaws (Reachable.runAll (s := .start { maxDepth := 3 }) .empty _)

end Arena

end XmlTree
