import Mathlib.Data.List.InsertIdx
import XmlTree.Proofs.Answer
import XmlTree.Proofs.Edit
import XmlTree.Proofs.Ownership.Consistent

/-!
# Moving children

A child moves in two steps.  `Arena.unlink` takes it out of the list of its owner,
and `Arena.link` puts a child without an owner into the list of another.  In a
consistent arena the edits of child lists come down to these two
(`appendChild_eq`, `insertBefore_eq`, `removeChild_eq`): whatever can fail fails
before the first change.  Both steps keep an arena consistent.
-/

namespace XmlTree

theorem NodeKind.place?_eq_child_iff {kind : NodeKind} :
    kind.place? = some .child ↔ kind.type.isChild = true := by
  cases kind <;> simp [NodeKind.place?, NodeKind.type, NodeType.isChild]

/-! ## The place of an insertion -/

section PlaceBefore

variable {before after siblings : List NodeId} {child reference : NodeId}

theorem idxOf?_append_cons (first : reference ∉ before) :
    (before ++ reference :: after).idxOf? reference = some before.length := by
  rw [List.idxOf?_eq_some_iff]
  refine ⟨by simp, by simp, fun j hj same => first ?_⟩
  rw [List.getElem_append_left hj] at same
  exact same ▸ List.getElem_mem hj

/-- The place before the first `reference` is counted without the child. -/
theorem placeBefore_append (first : reference ∉ before) :
    placeBefore (before ++ reference :: after) child reference
      = some (before.erase child).length := by
  rw [placeBefore, idxOf?_append_cons first, Option.map_some, List.take_left, List.length_erase]
  simp

theorem takeWhile_ne_append (first : reference ∉ before) :
    (before ++ reference :: after).takeWhile (· ≠ reference) = before := by
  have all : ∀ x ∈ before, decide (x ≠ reference) = true := fun x member =>
    decide_eq_true fun same => first (same ▸ member)
  rw [List.takeWhile_append_of_pos all, List.takeWhile_cons_of_neg (by simp), List.append_nil]

theorem placeBefore_of_mem (member : reference ∈ siblings) :
    placeBefore siblings child reference
      = some ((siblings.takeWhile (· ≠ reference)).erase child).length := by
  obtain ⟨before, after, rfl, first⟩ := List.eq_append_cons_of_mem member
  rw [placeBefore_append first, takeWhile_ne_append first]

theorem length_takeWhile_erase_le (member : reference ∈ siblings) (child : NodeId) :
    ((siblings.takeWhile (· ≠ reference)).erase child).length ≤ (siblings.erase child).length := by
  obtain ⟨before, after, rfl, first⟩ := List.eq_append_cons_of_mem member
  rw [takeWhile_ne_append first, List.erase_append]
  split
  next here => simp
  next elsewhere => rw [List.erase_of_not_mem elsewhere]; simp

end PlaceBefore

namespace Arena

variable {a : Arena} {parent child owner id : NodeId} {place : Place}

/-! ## The two steps -/

/-- The arena with a child taken out of the list of its owner, if it has one. -/
def unlink (a : Arena) (child : NodeId) : Arena :=
  match a.owner? child with
  | none => a
  | some owner =>
      (a.update owner (Node.mapChildren (·.erase child))).update child (Node.withParent none)

/-- The arena with a child put into the list of a parent. -/
def link (a : Arena) (parent child : NodeId) (place : List NodeId → List NodeId) : Arena :=
  (a.update parent (Node.mapChildren place)).update child (Node.withParent (some parent))

theorem unlink_of_unowned (h : a.owner? child = none) : a.unlink child = a := by rw [unlink, h]

theorem unlink_of_owner (h : a.owner? child = some owner) : a.unlink child
    = (a.update owner (Node.mapChildren (·.erase child))).update child (Node.withParent none) := by
  rw [unlink, h]

theorem contains_of_owner? (h : a.owner? id = some owner) : a.contains id = true := by
  obtain ⟨node, found, _⟩ := exists_find?_of_owner? h
  exact contains_iff.2 ⟨node, found⟩

theorem contains_of_place? (h : a.place? id = some place) : a.contains id = true := by
  obtain ⟨node, found, _⟩ := exists_find?_of_place? h
  exact contains_iff.2 ⟨node, found⟩

theorem IsContainer.contains (container : a.IsContainer id) : a.contains id = true :=
  contains_iff.2 (container.imp fun _ => And.left)

theorem contains_update (a : Arena) (id : NodeId) (f : Node → Node) (x : NodeId) :
    (a.update id f).contains x = a.contains x := by
  rw [contains, contains, find?_update]
  split
  · rw [Option.isSome_map]
  · rfl

/-! ## Unlinking -/

section Unlink

theorem relinks_unlink (h : a.Consistent) (child : NodeId) :
    a.Relinks (a.unlink child) := by
  cases owned : a.owner? child with
  | none =>
    rw [unlink_of_unowned owned]
    exact Relinks.refl a
  | some owner =>
    rw [unlink_of_owner owned]
    have container := h.isContainer_of_owner? owned
    exact (relinks_mapChildren (h.ne_xmlDeclaration_of_isContainer container) _).trans
      (relinks_withParent (h.ne_xmlDeclaration_of_owner? owned) none)

theorem owner?_unlink (a : Arena) (child x : NodeId) :
    (a.unlink child).owner? x = if child = x then none else a.owner? x := by
  cases owned : a.owner? child with
  | none =>
    rw [unlink_of_unowned owned]
    split
    next same => rw [← same, owned]
    next other => rfl
  | some owner =>
    rw [unlink_of_owner owned, owner?_withParent, owner?_mapChildren]
    rw [contains_update]
    exact contains_of_owner? owned

/-- A node is listed by its owner only. -/
theorem Consistent.not_mem_childrenAt (h : a.Consistent) (other : a.owner? child ≠ some owner) :
    child ∉ a.childrenAt owner := fun member => other (h.mem_childrenAt_iff.1 member).1

theorem childrenAt_unlink (h : a.Consistent) (child p : NodeId) :
    (a.unlink child).childrenAt p = (a.childrenAt p).erase child := by
  cases owned : a.owner? child with
  | none =>
    rw [unlink_of_unowned owned, List.erase_of_not_mem]
    exact h.not_mem_childrenAt (by rw [owned]; exact Option.some_ne_none p |>.symm)
  | some owner =>
    rw [unlink_of_owner owned, childrenAt_withParent,
      childrenAt_mapChildren (h.isContainer_of_owner? owned)]
    split
    next same => rfl
    next other =>
      rw [List.erase_of_not_mem]
      exact h.not_mem_childrenAt fun same => other (Option.some.inj (owned.symm.trans same))

/-- An unlinked child is listed nowhere.  Everything else is listed as before. -/
theorem lists_unlink (h : a.Consistent) (placed : a.place? child = some .child) :
    (a.unlink child).Lists owner place id ↔ child ≠ id ∧ a.Lists owner place id := by
  rcases eq_or_ne place .child with inside | outside
  · subst inside
    rw [Lists, Lists, childrenAt_unlink h child, (h.distinct owner).mem_erase_iff, ne_comm]
  · have apart : a.Lists owner place id → child ≠ id := by
      intro listed same
      subst same
      exact outside (Option.some.inj ((h.lists_iff.1 listed).2.symm.trans placed))
    rw [and_iff_right_of_imp apart]
    cases owned : a.owner? child with
    | none => rw [unlink_of_unowned owned]
    | some owner' =>
      rw [unlink_of_owner owned, lists_withParent,
        lists_mapChildren (h.isContainer_of_owner? owned), if_neg fun both => outside both.2]

theorem Consistent.unlink (h : a.Consistent) (placed : a.place? child = some .child) :
    (a.unlink child).Consistent := by
  have relinks := relinks_unlink h child
  refine h.of_relinks relinks (fun p => ?_) (fun x => ?_)
  · rw [childrenAt_unlink h child]
    exact (h.distinct p).erase child
  · by_cases same : child = x
    · subst same
      refine .of_unowned ?_ fun owner place listed => ?_
      · rw [owner?_unlink, if_pos rfl]
      · exact ((lists_unlink h placed).1 listed).1 rfl
    · refine (h.settled x).congr ?_ (relinks.place x) fun owner place => ?_
      · rw [owner?_unlink, if_neg same]
      · rw [lists_unlink h placed, and_iff_right same]

end Unlink

/-! ## Linking -/

section Link

variable {g : List NodeId → List NodeId}

theorem relinks_link (h : a.Consistent) (container : a.IsContainer parent)
    (placed : a.place? child = some .child) : a.Relinks (a.link parent child g) := by
  have apart : child ≠ xmlDeclaration := by
    intro same
    subst same
    rw [place?_of_find? h.builtIn] at placed
    cases placed
  exact (relinks_mapChildren (h.ne_xmlDeclaration_of_isContainer container) _).trans
    (relinks_withParent apart _)

theorem owner?_link (live : a.contains child = true) (x : NodeId) :
    (a.link parent child g).owner? x = if child = x then some parent else a.owner? x := by
  rw [link, owner?_withParent, owner?_mapChildren]
  rw [contains_update]
  exact live

theorem childrenAt_link (container : a.IsContainer parent) (p : NodeId) :
    (a.link parent child g).childrenAt p =
      if parent = p then g (a.childrenAt p) else a.childrenAt p := by
  rw [link, childrenAt_withParent, childrenAt_mapChildren container]

theorem lists_link (container : a.IsContainer parent)
    (adds : (g (a.childrenAt parent)).Perm (child :: a.childrenAt parent)) :
    (a.link parent child g).Lists owner place id
      ↔ (parent = owner ∧ place = .child ∧ child = id) ∨ a.Lists owner place id := by
  rw [link, lists_withParent, lists_mapChildren container]
  by_cases same : parent = owner ∧ place = .child
  · obtain ⟨rfl, rfl⟩ := same
    rw [if_pos ⟨rfl, rfl⟩, adds.mem_iff, List.mem_cons, Lists]
    simp [eq_comm]
  · rw [if_neg same]
    constructor
    · exact Or.inr
    · rintro (⟨rfl, rfl, _⟩ | listed)
      · exact absurd ⟨rfl, rfl⟩ same
      · exact listed

theorem Consistent.link (h : a.Consistent) (container : a.IsContainer parent)
    (placed : a.place? child = some .child) (unowned : a.owner? child = none)
    (adds : (g (a.childrenAt parent)).Perm (child :: a.childrenAt parent)) :
    (a.link parent child g).Consistent := by
  have relinks := relinks_link (g := g) h container placed
  have live := contains_of_place? placed
  have unlisted : ∀ owner place, ¬ a.Lists owner place child := fun owner place listed => by
    have := (h.lists_iff.1 listed).1
    simp [unowned] at this
  refine h.of_relinks relinks (fun p => ?_) (fun x => ?_)
  · rw [childrenAt_link container]
    split
    next same =>
      subst same
      rw [adds.nodup_iff, List.nodup_cons]
      exact ⟨unlisted parent .child, h.distinct parent⟩
    next other => exact h.distinct p
  · by_cases same : child = x
    · subst same
      have owned : (a.link parent child g).owner? child = some parent := by
        rw [owner?_link live, if_pos rfl]
      refine .of_single owned ((relinks.place child).trans placed) fun p q => ?_
      · rw [lists_link container adds]
        constructor
        · rintro (⟨rfl, rfl, _⟩ | listed)
          · exact ⟨rfl, rfl⟩
          · exact absurd listed (unlisted p q)
        · rintro ⟨rfl, rfl⟩
          exact Or.inl ⟨rfl, rfl, rfl⟩
    · refine (h.settled x).congr ?_ (relinks.place x) fun p q => ?_
      · rw [owner?_link live, if_neg same]
      · rw [lists_link container adds]
        exact or_iff_right fun new => same new.2.2

end Link

/-! ## The edits -/

theorem parent_eq_ok_iff {owner : Option NodeId} :
    a.parent id = .ok owner ↔ ∃ node, a.find? id = some node ∧ node.parent = owner := by
  simp only [Arena.parent, bind_eq_ok_iff, get_eq_ok_iff, pure_eq_ok_iff]

theorem containerChildren_of_isContainer (container : a.IsContainer id) :
    a.containerChildren id = .ok (a.childrenAt id) := by
  obtain ⟨node, found, holds⟩ := container
  rw [containerChildren, get_of_find? found, childrenAt_of_find? found]
  exact if_pos holds

theorem containerChildren_eq_ok_iff {siblings : List NodeId} :
    a.containerChildren id = .ok siblings ↔ a.IsContainer id ∧ a.childrenAt id = siblings := by
  constructor
  · intro listed
    simp only [containerChildren, bind_eq_ok_iff, get_eq_ok_iff, ite_else_throw_eq_ok_iff,
      pure_eq_ok_iff] at listed
    obtain ⟨node, found, container, rfl⟩ := listed
    exact ⟨⟨node, found, container⟩, childrenAt_of_find? found⟩
  · rintro ⟨container, rfl⟩
    exact containerChildren_of_isContainer container

theorem children_of_isContainer (container : a.IsContainer id) :
    a.children id = .ok (a.childrenAt id) := by
  obtain ⟨node, found, holds⟩ := container
  rw [children, get_of_find? found, childrenAt_of_find? found]
  rfl

theorem place?_eq_child_iff : a.place? id = some .child ↔
    ∃ node, a.find? id = some node ∧ node.type.isChild = true := by
  rw [place?, Option.bind_eq_some_iff]
  simp only [NodeKind.place?_eq_child_iff]
  rfl

/-- An insertion is accepted for a child and a container that is not below it, when
the moved tree stays within the depth limit. -/
theorem checkInsertable_eq_ok_iff : a.checkInsertable parent child = .ok () ↔
    a.IsContainer parent ∧ a.place? child = some .child ∧
      (a.lineage parent).contains child = false ∧
      ∃ summit height, (a.lineage parent).summit = .ok summit ∧ a.height child = .ok height ∧
        summit.depth + 1 + height ≤ a.config.maxDepth := by
  unfold checkInsertable nodeType
  simp only [bind_eq_ok_iff, get_eq_ok_iff, unless_eq_ok_iff, when_eq_ok_iff, ite_throw_eq_ok_iff,
    pure_eq_ok_iff, IsContainer, place?_eq_child_iff, Bool.not_eq_true, Nat.not_lt]
  constructor
  · rintro ⟨_, ⟨parentNode, foundParent, rfl⟩, container, _, ⟨childNode, foundChild, rfl⟩,
      insertable, apart, summit, top, height, deep, fits, -⟩
    exact ⟨⟨parentNode, foundParent, container⟩, ⟨childNode, foundChild, insertable⟩, apart,
      summit, height, top, deep, fits⟩
  · rintro ⟨⟨parentNode, foundParent, container⟩, ⟨childNode, foundChild, insertable⟩, apart,
      summit, height, top, deep, fits⟩
    exact ⟨_, ⟨parentNode, foundParent, rfl⟩, container, _, ⟨childNode, foundChild, rfl⟩,
      insertable, apart, summit, top, height, deep, fits, trivial⟩

/-- A child leaves its owner if the owner lists it.  Otherwise nothing changes. -/
theorem detach_run (a : Arena) (child : NodeId) : Edit.detach child a = match a.parent child with
    | .error e => .error e a
    | .ok none => .ok () a
    | .ok (some owner) => match a.containerChildren owner with
      | .error e => .error e a
      | .ok siblings =>
          if child ∈ siblings then .ok () (a.unlink child) else .error (.lost child owner) a := by
  rw [Edit.detach, Edit.query_bind]
  cases named : a.parent child with
  | error e => rfl
  | ok owner? =>
    cases owner? with
    | none => rfl
    | some owner =>
      show (Edit.query (·.containerChildren owner) >>= _ : Edit Unit) a
        = match a.containerChildren owner with
          | .error e => _
          | .ok siblings => _
      rw [Edit.query_bind]
      cases listed : a.containerChildren owner with
      | error e => rfl
      | ok siblings =>
        show (if siblings.contains child = true then _ else _ : Edit Unit) a
          = if child ∈ siblings then _ else _
        by_cases member : child ∈ siblings
        · rw [if_pos (List.contains_iff_mem.2 member), if_pos member]
          obtain ⟨node, found, owned⟩ := parent_eq_ok_iff.1 named
          have container := (containerChildren_eq_ok_iff.1 listed).1
          have live :
              (a.update owner (Node.mapChildren (·.erase child))).contains child = true := by
            rw [contains_update]
            exact contains_iff.2 ⟨node, found⟩
          show (Edit.change owner _ >>= _ : Edit Unit) a = _
          rw [Edit.change_bind_of_live container.contains, Edit.setParent_of_live live,
            unlink_of_owner ((owner?_of_find? found).trans owned)]
        · rw [if_neg fun contained => member (List.contains_iff_mem.1 contained), if_neg member]
          rfl

theorem detach_eq (h : a.Consistent) (placed : a.place? child = some .child) :
    Edit.detach child a = .ok () (a.unlink child) := by
  obtain ⟨node, found, _⟩ := exists_find?_of_place? placed
  have owners := owner?_of_find? found
  rw [detach_run, parent_eq_ok_iff.2 ⟨node, found, rfl⟩]
  cases owned : node.parent with
  | none => rw [unlink_of_unowned (owners.trans owned)]
  | some owner =>
    rw [owned] at owners
    have listed : child ∈ a.childrenAt owner := h.mem_childrenAt_iff.2 ⟨owners, placed⟩
    simp only [containerChildren_of_isContainer (h.isContainer_of_owner? owners), if_pos listed]

theorem attach_eq (container : a.IsContainer parent) (live : a.contains child = true)
    (place : List NodeId → List NodeId) :
    Edit.attach parent child place a = .ok () (a.link parent child place) := by
  have live' : (a.update parent (Node.mapChildren place)).contains child = true := by
    rw [contains_update]
    exact live
  rw [Edit.attach, Edit.discard_query_bind, containerChildren_of_isContainer container]
  show (Edit.change parent _ >>= _ : Edit Unit) a = _
  rw [Edit.change_bind_of_live container.contains, Edit.setParent_of_live live', link]

/-- The move of a child that has been checked. -/
theorem detach_attach_eq (h : a.Consistent) (container : a.IsContainer parent)
    (placed : a.place? child = some .child) (place : List NodeId → List NodeId) :
    (do Edit.detach child; Edit.attach parent child place : Edit Unit) a
      = .ok () ((a.unlink child).link parent child place) := by
  have relinks := relinks_unlink h child
  have live : (a.unlink child).contains child = true := by
    rw [relinks.contains]
    exact contains_of_place? placed
  rw [Edit.bind_of_ok (detach_eq h placed)]
  exact attach_eq (relinks.isContainer container) live place

theorem appendChild_eq (h : a.Consistent) (parent child : NodeId) : Edit.appendChild parent child a
    = match a.checkInsertable parent child with
      | .ok _ => .ok () ((a.unlink child).link parent child (· ++ [child]))
      | .error e => .error e a := by
  rw [Edit.appendChild, Edit.query_bind]
  cases checked : a.checkInsertable parent child with
  | error e => rfl
  | ok _ =>
    obtain ⟨container, placed, _⟩ := checkInsertable_eq_ok_iff.1 checked
    exact detach_attach_eq h container placed (· ++ [child])

theorem listed_of_parent (h : a.Consistent) {node : Node} (found : a.find? id = some node)
    (unmapped : node.type.isMapped = false) (owned : node.parent = some owner) :
    a.place? id = some .child := by
  obtain ⟨place, placed⟩ := h.exists_place?_of_owner? ((owner?_of_find? found).trans owned)
  rw [placed]
  rw [place?_of_find? found] at placed
  obtain ⟨_, _, kind⟩ := node
  cases kind with
  | document data => cases placed
  | attr data => cases unmapped
  | namespaceDecl data => cases unmapped
  | element data => exact placed.symm
  | text value => exact placed.symm
  | comment value => exact placed.symm

/-- The conditions of an insertion are checked first, those on the reference before
all others. -/
theorem insertBefore_eq (h : a.Consistent) (parent child reference : NodeId) :
    Edit.insertBefore parent child reference a
    = match a.find? reference with
      | none => .error (.notFound reference) a
      | some node =>
        if node.type.isMapped = true ∨ node.parent ≠ some parent then
          .error (.hierarchy (.referenceNotChild reference parent)) a
        else if child = reference then .ok () a
        else match a.checkInsertable parent child with
          | .ok _ => .ok () ((a.unlink child).link parent child
              (·.insertIdx
                (((a.childrenAt parent).takeWhile (· ≠ reference)).erase child).length child))
          | .error e => .error e a := by
  rw [Edit.insertBefore, Edit.query_bind]
  cases found : a.find? reference with
  | none => rw [get_of_not_find? found]
  | some node =>
    rw [get_of_find? found]
    by_cases stranger : node.type.isMapped = true ∨ node.parent ≠ some parent
    · have refused : (node.type.isMapped || node.parent != some parent) = true := by
        simpa using stranger
      show (if (node.type.isMapped || node.parent != some parent) = true then _ else _ :
        Edit Unit) a = _
      rw [if_pos refused, Edit.throw_bind]
      exact (if_pos stranger).symm
    · have known : ¬ (node.type.isMapped || node.parent != some parent) = true := by
        simpa using stranger
      show (if (node.type.isMapped || node.parent != some parent) = true then _ else _ :
        Edit Unit) a = if node.type.isMapped = true ∨ node.parent ≠ some parent then _ else _
      rw [if_neg known, if_neg stranger]
      by_cases same : child = reference
      · rw [if_pos same, if_pos same]
        rfl
      · rw [if_neg same, if_neg same]
        show (Edit.query (·.checkInsertable parent child) >>= _ : Edit Unit) a = _
        rw [Edit.query_bind]
        cases checked : a.checkInsertable parent child with
        | error e => rfl
        | ok _ =>
          obtain ⟨container, placed, _⟩ := checkInsertable_eq_ok_iff.1 checked
          rw [not_or, Bool.not_eq_true, not_not] at stranger
          have listed : reference ∈ a.childrenAt parent :=
            h.mem_childrenAt_iff.2 ⟨(owner?_of_find? found).trans stranger.2,
              listed_of_parent h found stranger.1 stranger.2⟩
          show (Edit.query (·.children parent) >>= _ : Edit Unit) a = _
          rw [Edit.query_bind, children_of_isContainer container]
          dsimp only
          rw [placeBefore_of_mem listed]
          exact detach_attach_eq h container placed _

/-- A child is removed from its own parent only. -/
theorem removeChild_eq (h : a.Consistent) (parent child : NodeId) : Edit.removeChild parent child a
    = match a.find? child with
      | none => .error (.notFound child) a
      | some node =>
        if node.type.isMapped = true then .error (.hierarchy (.ownedThroughMap child)) a
        else if node.parent = some parent then .ok () (a.unlink child)
        else .error (.hierarchy (.notChild child parent)) a := by
  rw [Edit.removeChild, Edit.query_bind]
  cases found : a.find? child with
  | none => rw [get_of_not_find? found]
  | some node =>
    rw [get_of_find? found]
    show (if node.type.isMapped = true then _ else _ : Edit Unit) a
      = if node.type.isMapped = true then _ else _
    split
    next mapped => rfl
    next unmapped =>
      split
      next owned =>
        exact detach_eq h (listed_of_parent h found (Bool.eq_false_iff.2 unmapped) owned)
      next other => rfl

/-! ## Edits that succeed -/

section Succeeds

variable {a' : Arena} {reference : NodeId}

/-- A reference that a child can be inserted before: a child of the parent. -/
def Refers (a : Arena) (parent reference : NodeId) : Prop :=
  ∃ node, a.find? reference = some node ∧ node.type.isMapped = false ∧ node.parent = some parent

theorem Refers.mem_childrenAt (refers : a.Refers parent reference) (h : a.Consistent) :
    reference ∈ a.childrenAt parent := by
  obtain ⟨node, found, unmapped, owned⟩ := refers
  exact h.mem_childrenAt_iff.2
    ⟨(owner?_of_find? found).trans owned, listed_of_parent h found unmapped owned⟩

theorem checked_of_appendChild (h : a.Consistent)
    (ran : Edit.appendChild parent child a = .ok () a') :
    a.checkInsertable parent child = .ok () ∧
      a' = (a.unlink child).link parent child (· ++ [child]) := by
  rw [appendChild_eq h] at ran
  cases checked : a.checkInsertable parent child with
  | error e =>
    rw [checked] at ran
    cases ran
  | ok _ =>
    rw [checked] at ran
    cases ran
    exact ⟨rfl, rfl⟩

/-- An insertion that succeeds has a proper reference.  It is checked unless there is nothing
to do. -/
theorem checked_of_insertBefore (h : a.Consistent)
    (ran : Edit.insertBefore parent child reference a = .ok () a') : a.Refers parent reference ∧
      (child = reference ∧ a' = a ∨ child ≠ reference ∧ a.checkInsertable parent child = .ok () ∧
        a' = (a.unlink child).link parent child (·.insertIdx
          (((a.childrenAt parent).takeWhile (· ≠ reference)).erase child).length child)) := by
  rw [insertBefore_eq h] at ran
  cases found : a.find? reference with
  | none =>
    rw [found] at ran
    cases ran
  | some node =>
    simp only [found] at ran
    split at ran
    next stranger => cases ran
    next known =>
      rw [not_or, Bool.not_eq_true, not_not] at known
      refine ⟨⟨node, found, known⟩, ?_⟩
      split at ran
      next same =>
        cases ran
        exact .inl ⟨same, rfl⟩
      next other =>
        cases checked : a.checkInsertable parent child with
        | error e =>
          rw [checked] at ran
          cases ran
        | ok _ =>
          rw [checked] at ran
          cases ran
          exact .inr ⟨other, rfl, rfl⟩

theorem placed_of_removeChild (h : a.Consistent)
    (ran : Edit.removeChild parent child a = .ok () a') :
    a.place? child = some .child ∧ a.owner? child = some parent ∧ a' = a.unlink child := by
  rw [removeChild_eq h] at ran
  cases found : a.find? child with
  | none =>
    rw [found] at ran
    cases ran
  | some node =>
    simp only [found] at ran
    split at ran
    next mapped => cases ran
    next unmapped =>
      split at ran
      next owned =>
        cases ran
        exact ⟨listed_of_parent h found (Bool.eq_false_iff.2 unmapped) owned,
          (owner?_of_find? found).trans owned, rfl⟩
      next other => cases ran

end Succeeds

end Arena

end XmlTree
