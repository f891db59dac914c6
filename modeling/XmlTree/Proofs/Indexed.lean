import XmlTree.Edit.Indexed
import XmlTree.Proofs.Ownership.Children

/-!
# Child lists of any arena

Most laws are about sound arenas.  An arena that has been read from somewhere may be
anything: a list may have a child twice or lack it, and a node may name an owner that is not
there, lists nothing or does not list it.  On every arena the edits of child lists are still
safe (`IndexedEdit.Safe`): with checked indices they do what they do without, so no index is
ever wrong, and an edit that is refused has changed nothing.

An edit asks its questions first and changes nothing meanwhile, so it is safe if what it
does with the answers is (`Safe.query_bind`).  The first change is that the child leaves its
owner, and what comes after cannot fail: the parent is as much a container as before
(`IsContainer.unlink`), and its list has got at most one shorter
(`length_childrenAt_unlink`), while the place before the reference leaves out the reference
itself.
-/

namespace XmlTree

variable {α β : Type} {a b : Arena} {parent child reference owner x : NodeId}
variable {place place' : List NodeId → List NodeId} {index : Nat}

namespace Arena

/-! ## Without the child -/

theorem IsContainer.update {id : NodeId} {f : Node → Node} (container : a.IsContainer parent)
    (same : ∀ node, (f node).type = node.type) : (a.update id f).IsContainer parent := by
  obtain ⟨node, found, holds⟩ := container
  rw [IsContainer, find?_update, found]
  split
  · exact ⟨_, rfl, (congrArg NodeType.isContainer (same node)).trans holds⟩
  · exact ⟨node, rfl, holds⟩

theorem IsContainer.unlink (container : a.IsContainer parent) (child : NodeId) :
    (a.unlink child).IsContainer parent := by
  cases owned : a.owner? child with
  | none => rwa [unlink_of_unowned owned]
  | some owner =>
    rw [unlink_of_owner owned]
    exact (container.update (f := Node.mapChildren _) fun node =>
      node.kind.type_mapChildren _).update fun _ => rfl

theorem contains_unlink (a : Arena) (child x : NodeId) :
    (a.unlink child).contains x = a.contains x := by
  cases owned : a.owner? child with
  | none => rw [unlink_of_unowned owned]
  | some owner => rw [unlink_of_owner owned, contains_update, contains_update]

theorem length_children_erase (kind : NodeKind) (child : NodeId) :
    kind.children.length - 1 ≤ (kind.mapChildren (·.erase child)).children.length := by
  by_cases container : kind.type.isContainer = true
  · rw [NodeKind.children_mapChildren _ container, List.length_erase]
    split <;> omega
  · cases kind with
    | document data => exact absurd rfl container
    | element data => exact absurd rfl container
    | _ => exact Nat.zero_le _

/-- A list gets at most one shorter when a child leaves. -/
theorem length_childrenAt_unlink (a : Arena) (child x : NodeId) :
    (a.childrenAt x).length - 1 ≤ ((a.unlink child).childrenAt x).length := by
  cases owned : a.owner? child with
  | none =>
    rw [unlink_of_unowned owned]
    exact Nat.sub_le _ _
  | some owner =>
    rw [unlink_of_owner owned, childrenAt_withParent, childrenAt, childrenAt, find?_update]
    cases a.find? x with
    | none => split <;> exact Nat.zero_le _
    | some node =>
      split
      · exact length_children_erase node.kind child
      · exact Nat.sub_le _ _

theorem update_mapChildren_congr (place place' : List NodeId → List NodeId)
    (same : place (a.childrenAt owner) = place' (a.childrenAt owner)) :
    a.update owner (Node.mapChildren place) = a.update owner (Node.mapChildren place') := by
  refine update_congr fun node found => ?_
  rw [childrenAt_of_find? found] at same
  obtain ⟨id, parent, kind⟩ := node
  refine congrArg (Node.mk id parent) ?_
  cases kind with
  | document data =>
    exact congrArg (fun ids => NodeKind.document { data with children := ids }) same
  | element data =>
    exact congrArg (fun ids => NodeKind.element { data with children := ids }) same
  | _ => rfl

end Arena

open Arena

/-! ## Safe edits -/

/-- On an arena an edit that checks its indices does what an edit does that does not.  If they
end early they have been refused and have changed nothing. -/
structure IndexedEdit.Safe (checked : IndexedEdit α) (edit : Edit α) (a : Arena) : Prop where
  /-- Both give the same answer and leave the same arena. -/
  same : checked a = ofEdit edit a
  /-- No index is wrong, and a refusal leaves the arena as it was. -/
  refused : ∀ fault a', checked a = .error fault a' →
    ∃ e, fault = .refused e ∧ edit a = .error e a ∧ a' = a

namespace IndexedEdit

theorem lift_of_ok {edit : Edit α} {answer : α} (ok : edit a = .ok answer b) :
    (liftM edit : IndexedEdit α) a = .ok answer b := by
  show ofEdit edit a = _
  rw [ofEdit, ok]

theorem lift_of_error {edit : Edit α} {e : TreeError} (error : edit a = .error e b) :
    (liftM edit : IndexedEdit α) a = .error (.refused e) b := by
  show ofEdit edit a = _
  rw [ofEdit, error]

namespace Safe

variable {checked : IndexedEdit α} {edit : Edit α}

theorem of_ok {answer : α} (ok : checked a = .ok answer b) (ok' : edit a = .ok answer b) :
    Safe checked edit a where
  same := by rw [ok, ofEdit, ok']
  refused fault a' failed := by cases ok.symm.trans failed

theorem of_refused {e : TreeError} (refused : checked a = .error (.refused e) a)
    (refused' : edit a = .error e a) : Safe checked edit a where
  same := by rw [refused, ofEdit, refused']
  refused fault a' failed := by
    cases refused.symm.trans failed
    exact ⟨e, rfl, refused', rfl⟩

theorem congr {checked' : IndexedEdit α} {edit' : Edit α} (safe : Safe checked' edit' a)
    (same : checked a = checked' a) (same' : edit a = edit' a) : Safe checked edit a where
  same := by rw [same, safe.same, ofEdit, ofEdit, same']
  refused := by
    rw [same, same']
    exact safe.refused

theorem ite {c : Prop} [Decidable c] {checked' : IndexedEdit α} {edit' : Edit α}
    (holds : c → Safe checked edit a) (fails : ¬ c → Safe checked' edit' a) :
    Safe (if c then checked else checked') (if c then edit else edit') a := by
  by_cases h : c
  · rw [if_pos h, if_pos h]
    exact holds h
  · rw [if_neg h, if_neg h]
    exact fails h

/-- A question changes nothing. -/
theorem query_bind {question : Arena → Except TreeError α} {next : α → IndexedEdit β}
    {next' : α → Edit β}
    (safe : ∀ answer, question a = .ok answer → Safe (next answer) (next' answer) a) :
    Safe (liftM (Edit.query question) >>= next) (Edit.query question >>= next') a := by
  cases answered : question a with
  | error e =>
    have asked : Edit.query question a = .error e a := by rw [Edit.query_run, answered]
    exact of_refused (Edit.bind_of_error (lift_of_error asked)) (Edit.bind_of_error asked)
  | ok answer =>
    have asked : Edit.query question a = .ok answer a := by rw [Edit.query_run, answered]
    obtain ⟨same, refused⟩ := safe answer answered
    refine ⟨?_, ?_⟩
    · rw [Edit.bind_of_ok (lift_of_ok asked), same, ofEdit, ofEdit, Edit.bind_of_ok asked]
    · rwa [Edit.bind_of_ok (lift_of_ok asked), Edit.bind_of_ok asked]

end Safe

/-! ## Taking out and putting in -/

/-- To take out what stands where a child is found first is to take out the child. -/
theorem removeAt_run (container : a.IsContainer owner)
    (found : (a.childrenAt owner).idxOf? child = some index) : removeAt owner index a
      = .ok () (a.update owner (Node.mapChildren (·.erase child))) := by
  have asked : Edit.query (·.containerChildren owner) a = .ok (a.childrenAt owner) a := by
    rw [Edit.query_run, containerChildren_of_isContainer container]
  obtain ⟨inside, _⟩ := List.idxOf?_eq_some_iff.1 found
  have erased := List.erase_eq_eraseIdx (a.childrenAt owner) child
  simp only [found] at erased
  rw [removeAt, Edit.bind_of_ok (lift_of_ok asked), if_pos inside,
    update_mapChildren_congr (·.erase child) (·.eraseIdx index) erased]
  exact lift_of_ok (Edit.change_of_live container.contains _)

theorem insertAt_run (container : a.IsContainer parent)
    (fits : index ≤ (a.childrenAt parent).length) (child : NodeId) : insertAt parent child index a
      = .ok () (a.update parent (Node.mapChildren (·.insertIdx index child))) := by
  have asked : Edit.query (·.containerChildren parent) a = .ok (a.childrenAt parent) a := by
    rw [Edit.query_run, containerChildren_of_isContainer container]
  rw [insertAt, Edit.bind_of_ok (lift_of_ok asked), if_pos fits]
  exact lift_of_ok (Edit.change_of_live container.contains _)

theorem setParent_run (live : a.contains child = true) (owner? : Option NodeId) :
    (liftM (Edit.setParent child owner?) : IndexedEdit Unit) a
      = .ok () (a.update child (Node.withParent owner?)) :=
  lift_of_ok (Edit.setParent_of_live live owner?)

theorem insertAt_setParent_run (container : a.IsContainer parent) (live : a.contains child = true)
    (fits : index ≤ (a.childrenAt parent).length) :
    (do insertAt parent child index; Edit.setParent child (some parent) : IndexedEdit Unit) a
      = .ok () (a.link parent child (·.insertIdx index child)) := by
  rw [Edit.bind_of_ok (insertAt_run container fits child)]
  exact setParent_run (by rwa [contains_update]) (some parent)

/-- The index before a reference is the place before it, and never below zero. -/
theorem indexBefore_run {siblings : List NodeId} (member : reference ∈ siblings)
    (parent child : NodeId) (a : Arena) : indexBefore siblings parent child reference a
      = .ok ((siblings.takeWhile (· ≠ reference)).erase child).length a := by
  obtain ⟨before, after, rfl, first⟩ := List.eq_append_cons_of_mem member
  rw [indexBefore, idxOf?_append_cons first, takeWhile_ne_append first]
  dsimp only
  rw [List.take_left]
  by_cases earlier : child ∈ before
  · -- What stands before the reference is at least the child.
    obtain ⟨length, counts⟩ : ∃ length, before.length = length + 1 :=
      Nat.exists_eq_add_one.2 (List.length_pos_of_mem earlier)
    rw [if_pos (List.contains_iff_mem.2 earlier), List.length_erase_of_mem earlier, counts]
    rfl
  · rw [if_neg fun contained => earlier (List.contains_iff_mem.1 contained),
      List.erase_of_not_mem earlier]
    rfl

/-! ## The edits are safe -/

/-- A child leaves the list of its owner, or stays and nothing changes. -/
theorem safe_detach (a : Arena) (child : NodeId) : Safe (detach child) (Edit.detach child) a := by
  refine .query_bind fun owner? named => ?_
  cases owner? with
  | none => exact .of_ok rfl rfl
  | some owner =>
    refine .query_bind fun siblings listed => ?_
    obtain ⟨container, rfl⟩ := containerChildren_eq_ok_iff.1 listed
    cases found : (a.childrenAt owner).idxOf? child with
    | none =>
      refine .of_refused rfl ?_
      rw [if_neg fun member => List.idxOf?_eq_none_iff.1 found (List.contains_iff_mem.1 member)]
      rfl
    | some index =>
      have member : child ∈ a.childrenAt owner := by
        rw [← List.isSome_idxOf?, found]
        rfl
      obtain ⟨node, live, _⟩ := parent_eq_ok_iff.1 named
      have live' : (a.update owner (Node.mapChildren (·.erase child))).contains child = true := by
        rw [contains_update]
        exact contains_iff.2 ⟨node, live⟩
      refine .of_ok ((Edit.bind_of_ok (removeAt_run container found)).trans
        (setParent_run live' none)) ?_
      rw [if_pos (List.contains_iff_mem.2 member)]
      exact (Edit.change_bind_of_live container.contains _ _).trans
        (Edit.setParent_of_live live' none)

theorem detach_cases (a : Arena) (child : NodeId) :
    Edit.detach child a = .ok () (a.unlink child) ∨ ∃ e, Edit.detach child a = .error e a := by
  rw [detach_run]
  cases named : a.parent child with
  | error e => exact .inr ⟨e, rfl⟩
  | ok owner? =>
    cases owner? with
    | none =>
      obtain ⟨node, found, unowned⟩ := parent_eq_ok_iff.1 named
      exact .inl (by rw [unlink_of_unowned ((owner?_of_find? found).trans unowned)])
    | some owner =>
      dsimp only
      cases a.containerChildren owner with
      | error e => exact .inr ⟨e, rfl⟩
      | ok siblings =>
        dsimp only
        split
        · exact .inl rfl
        · exact .inr ⟨_, rfl⟩

/-- After a child has left its owner, nothing fails that puts it into the list of a container. -/
theorem safe_move (container : a.IsContainer parent) (live : a.contains child = true)
    {put : IndexedEdit Unit}
    (puts : put (a.unlink child) = .ok () ((a.unlink child).link parent child place)) :
    Safe (do detach child; put) (do Edit.detach child; Edit.attach parent child place) a := by
  have same := (safe_detach a child).same
  rcases detach_cases a child with left | ⟨e, stayed⟩
  · rw [ofEdit, left] at same
    have attached := attach_eq (container.unlink child) ((contains_unlink a child child).trans live)
    exact .of_ok ((Edit.bind_of_ok same).trans puts) ((Edit.bind_of_ok left).trans (attached place))
  · rw [ofEdit, stayed] at same
    exact .of_refused (Edit.bind_of_error same) (Edit.bind_of_error stayed)

/-- What has been checked is a container and a live child, whatever else the arena says. -/
theorem of_checkInsertable (checked : a.checkInsertable parent child = .ok ()) :
    a.IsContainer parent ∧ a.contains child = true := by
  obtain ⟨container, placed, _⟩ := checkInsertable_eq_ok_iff.1 checked
  exact ⟨container, contains_of_place? placed⟩

theorem safe_appendChild (a : Arena) (parent child : NodeId) :
    Safe (appendChild parent child) (Edit.appendChild parent child) a := by
  refine .query_bind fun _ checked => ?_
  obtain ⟨container, live⟩ := of_checkInsertable checked
  have container' := container.unlink child
  have asked : Edit.query (·.containerChildren parent) (a.unlink child)
      = .ok ((a.unlink child).childrenAt parent) (a.unlink child) := by
    rw [Edit.query_run, containerChildren_of_isContainer container']
  refine safe_move container live ((Edit.bind_of_ok (lift_of_ok asked)).trans ?_)
  rw [insertAt_setParent_run container' ((contains_unlink a child child).trans live)
    (Nat.le_refl _), link, link, update_mapChildren_congr
      (·.insertIdx ((a.unlink child).childrenAt parent).length child) (· ++ [child])
      List.insertIdx_length_self]

theorem safe_insertBefore (a : Arena) (parent child reference : NodeId) :
    Safe (insertBefore parent child reference) (Edit.insertBefore parent child reference) a := by
  refine .query_bind fun node found => ?_
  refine .ite (fun stranger => .of_refused rfl rfl) fun known => ?_
  refine .ite (fun same => .of_ok rfl rfl) fun other => ?_
  refine .query_bind fun _ checked => ?_
  refine .query_bind fun siblings listed => ?_
  obtain ⟨container, live⟩ := of_checkInsertable checked
  cases listed.symm.trans (children_of_isContainer container)
  by_cases member : reference ∈ a.childrenAt parent
  · have fits : (((a.childrenAt parent).takeWhile (· ≠ reference)).erase child).length
        ≤ ((a.unlink child).childrenAt parent).length := by
      have shorter := length_childrenAt_unlink a child parent
      obtain ⟨before, after, parts, first⟩ := List.eq_append_cons_of_mem member
      rw [parts, List.length_append, List.length_cons] at shorter
      rw [parts, takeWhile_ne_append first]
      have fewer := List.length_erase_le (a := child) (l := before)
      omega
    have puts := insertAt_setParent_run (container.unlink child)
      ((contains_unlink a child child).trans live) fits
    refine (safe_move container live puts).congr ?_ ?_
    · exact Edit.bind_of_ok (indexBefore_run member parent child a)
    · rw [placeBefore_of_mem member]
  · have missing := List.idxOf?_eq_none_iff.2 member
    have lost : indexBefore (a.childrenAt parent) parent child reference a
        = .error (.refused (.lost reference parent)) a := by
      rw [indexBefore, missing]
      rfl
    refine .of_refused (Edit.bind_of_error lost) ?_
    rw [placeBefore, missing]
    rfl

theorem safe_removeChild (a : Arena) (parent child : NodeId) :
    Safe (removeChild parent child) (Edit.removeChild parent child) a := by
  refine .query_bind fun node found => ?_
  refine .ite (fun mapped => .of_refused rfl rfl) fun unmapped => ?_
  exact .ite (fun owned => safe_detach a child) fun other => .of_refused rfl rfl

end IndexedEdit

/-! ## The laws of indices -/

/-- The edits of child lists are safe. -/
structure Arena.IndexLaws (a : Arena) : Prop where
  /-- A child is appended. -/
  append : ∀ parent child,
    (IndexedEdit.appendChild parent child).Safe (Edit.appendChild parent child) a
  /-- A child is inserted. -/
  insert : ∀ parent child reference,
    (IndexedEdit.insertBefore parent child reference).Safe
      (Edit.insertBefore parent child reference) a
  /-- A child is removed. -/
  remove : ∀ parent child,
    (IndexedEdit.removeChild parent child).Safe (Edit.removeChild parent child) a

/-- In every arena, whatever it says about owners and lists, the edits of child lists are
safe. -/
theorem Arena.indexLaws (a : Arena) : a.IndexLaws where
  append := IndexedEdit.safe_appendChild a
  insert := IndexedEdit.safe_insertBefore a
  remove := IndexedEdit.safe_removeChild a

-- The text is listed twice before the reference.  Once it has left, it is still listed once.
example :
    let a : Arena :=
      { slots := #[some xmlDeclarationNode,
          some ⟨⟨1⟩, none, .document ⟨0, none, [⟨2⟩, ⟨2⟩, ⟨3⟩]⟩⟩,
          some ⟨⟨2⟩, some ⟨1⟩, .text "t"⟩, some ⟨⟨3⟩, some ⟨1⟩, .comment "c"⟩]
        live := 3
        config := {} }
    ((Edit.insertBefore ⟨1⟩ ⟨2⟩ ⟨3⟩).outcome a).2.childrenAt ⟨1⟩ = [⟨2⟩, ⟨2⟩, ⟨3⟩] := by
  decide +kernel

end XmlTree
