import Mathlib.Logic.Relation
import XmlTree.Proofs.Edit
import XmlTree.Proofs.Ownership.Consistent

/-!
# Released nodes

A sweep empties the slots of what it is given and of everything below that, and no
others (`find?_sweep`).  What is below a node is read off the lists in the arena, so
this holds whatever the lists say, circles and repetitions included.  Every emptied
slot is counted once (`live_sweep`).

In a consistent arena a node without an owner can be swept: what is below it is
listed by nothing else, so what remains is consistent (`Consistent.sweep`).
-/

namespace XmlTree.Arena

open Relation (ReflTransGen)

variable {a a' : Arena} {id owner x : NodeId} {place : Place} {node : Node}

/-! ## What is below a node -/

/-- One identity lists another, in some place. -/
def Holds (a : Arena) (owner id : NodeId) : Prop := ∃ place, a.Lists owner place id

/-- An identity is one of the given ones or below one of them. -/
def Covers (a : Arena) (work : List NodeId) (id : NodeId) : Prop :=
  ∃ top ∈ work, ReflTransGen a.Holds top id

theorem not_holds_of_missing (missing : a.find? owner = none) : ¬ a.Holds owner id := by
  intro ⟨place, listed⟩
  obtain ⟨node, found⟩ := exists_find?_of_lists listed
  rw [missing] at found
  cases found

theorem covers_cons {work : List NodeId} :
    a.Covers (owner :: work) id ↔ ReflTransGen a.Holds owner id ∨ a.Covers work id := by
  simp [Covers]

theorem Covers.tail {work : List NodeId} (covered : a.Covers work owner)
    (holds : a.Holds owner id) : a.Covers work id := by
  obtain ⟨top, member, path⟩ := covered
  exact ⟨top, member, path.tail holds⟩

theorem holds_vacate : (a.vacate id).Holds owner x ↔ id ≠ owner ∧ a.Holds owner x := by
  by_cases same : id = owner
  · subst same
    have missing : (a.vacate id).find? id = none := by rw [find?_vacate, if_pos rfl]
    simp [not_holds_of_missing missing]
  · have kept : (a.vacate id).find? owner = a.find? owner := by rw [find?_vacate, if_neg same]
    rw [and_iff_right same]
    exact exists_congr fun place => lists_congr kept

/-- What is below a node is the node and what is below the nodes it lists. -/
theorem covers_vacate {rest : List NodeId} (found : a.find? id = some node) :
    id = x ∨ (a.vacate id).Covers (node.kind.owned ++ rest) x ↔ a.Covers (id :: rest) x := by
  constructor
  · rintro (rfl | ⟨top, member, path⟩)
    · exact ⟨id, List.mem_cons_self, .refl⟩
    · have path : ReflTransGen a.Holds top x :=
        ReflTransGen.mono (fun _ _ holds => (holds_vacate.1 holds).2) _ _ path
      rcases List.mem_append.1 member with owned | later
      · exact ⟨id, List.mem_cons_self, .head ((exists_lists_iff found).2 owned) path⟩
      · exact ⟨top, List.mem_cons_of_mem _ later, path⟩
  · intro ⟨top, member, path⟩
    induction path with
    | refl =>
      rcases List.mem_cons.1 member with rfl | later
      · exact Or.inl rfl
      · exact Or.inr ⟨top, List.mem_append_right _ later, .refl⟩
    | @tail y z _ holds ih =>
      by_cases same : id = y
      · subst same
        have owned := (exists_lists_iff found).1 holds
        exact Or.inr ⟨z, List.mem_append_left _ owned, .refl⟩
      · have covered := ih.resolve_left same
        exact Or.inr (covered.tail (holds_vacate.2 ⟨same, holds⟩))

/-! ## What a sweep leaves -/

/-- A sweep empties the slots below the given identities. -/
theorem find?_sweep (a : Arena) (work : List NodeId) (x : NodeId) :
    (a.Covers work x → (a.sweep work).find? x = none) ∧
      (¬ a.Covers work x → (a.sweep work).find? x = a.find? x) := by
  fun_induction sweep a work with
  | case1 a => simp [Covers]
  | case2 a id rest missing ih =>
    rw [covers_cons]
    constructor
    · rintro (below | covered)
      · rcases below.cases_head with rfl | ⟨y, holds, _⟩
        · by_cases covered : a.Covers rest id
          · exact ih.1 covered
          · rw [ih.2 covered, missing]
        · exact absurd holds (not_holds_of_missing missing)
      · exact ih.1 covered
    · intro outside
      exact ih.2 fun covered => outside (Or.inr covered)
  | case3 a id rest node found ih =>
    rw [← covers_vacate found]
    constructor
    · rintro (rfl | covered)
      · by_cases covered : (a.vacate id).Covers (node.kind.owned ++ rest) id
        · exact ih.1 covered
        · rw [ih.2 covered, find?_vacate, if_pos rfl]
      · exact ih.1 covered
    · intro outside
      rw [not_or] at outside
      rw [ih.2 outside.2, find?_vacate, if_neg outside.1]

theorem find?_sweep_of_covers {work : List NodeId} (covered : a.Covers work x) :
    (a.sweep work).find? x = none :=
  (find?_sweep a work x).1 covered

theorem find?_sweep_of_not_covers {work : List NodeId} (outside : ¬ a.Covers work x) :
    (a.sweep work).find? x = a.find? x :=
  (find?_sweep a work x).2 outside

theorem occupied_sweep_le (a : Arena) (work : List NodeId) :
    (a.sweep work).occupied ≤ a.occupied := by
  fun_induction sweep a work with
  | case1 a => exact Nat.le_refl _
  | case2 a id rest missing ih => exact ih
  | case3 a id rest node found ih =>
    have := occupied_vacate found
    omega

/-- The count goes down by the number of emptied slots. -/
theorem live_sweep (a : Arena) (work : List NodeId) :
    (a.sweep work).live = a.live - (a.occupied - (a.sweep work).occupied) := by
  fun_induction sweep a work with
  | case1 a => simp
  | case2 a id rest missing ih => exact ih
  | case3 a id rest node found ih =>
    have one := occupied_vacate found
    have bound := occupied_sweep_le (a.vacate id) (node.kind.owned ++ rest)
    have less : (a.vacate id).live = a.live - 1 := rfl
    omega

theorem config_sweep (a : Arena) (work : List NodeId) : (a.sweep work).config = a.config := by
  fun_induction sweep a work with
  | case1 a => rfl
  | case2 a id rest missing ih => exact ih
  | case3 a id rest node found ih => exact ih

/-! ## Sweeping a consistent arena -/

theorem occupied_pos (found : a.find? id = some node) : 0 < a.occupied := by
  have := occupied_vacate found
  omega

section Sweep

/-- Above a node below `id` there are only nodes below `id`, up to `id` itself. -/
theorem Consistent.covers_owner (h : a.Consistent) (unowned : a.owner? id = none)
    (covered : a.Covers [id] x) (owned : a.owner? x = some owner) : a.Covers [id] owner := by
  obtain ⟨top, member, path⟩ := covered
  rw [List.mem_singleton] at member
  subst member
  rcases path.cases_tail with same | ⟨y, path, place, listed⟩
  · rw [← same, owned] at unowned
    cases unowned
  · obtain rfl := Option.some.inj ((h.lists_iff.1 listed).1.symm.trans owned)
    exact ⟨top, List.mem_singleton_self top, path⟩

theorem Consistent.not_covers_xmlDeclaration (h : a.Consistent) (apart : id ≠ xmlDeclaration) :
    ¬ a.Covers [id] xmlDeclaration := by
  intro ⟨top, member, path⟩
  rw [List.mem_singleton] at member
  subst member
  rcases path.cases_tail with same | ⟨y, _, place, listed⟩
  · exact apart same.symm
  · exact h.ne_xmlDeclaration_of_owner? (h.lists_iff.1 listed).1 rfl

/-- The remaining nodes list each other as before. -/
theorem lists_sweep (a : Arena) (work : List NodeId) :
    (a.sweep work).Lists owner place x ↔ ¬ a.Covers work owner ∧ a.Lists owner place x := by
  constructor
  · intro listed
    have outside : ¬ a.Covers work owner := fun covered =>
      not_holds_of_missing (find?_sweep_of_covers covered) ⟨place, listed⟩
    exact ⟨outside, (lists_congr (find?_sweep_of_not_covers outside)).1 listed⟩
  · intro ⟨outside, listed⟩
    exact (lists_congr (find?_sweep_of_not_covers outside)).2 listed

theorem owner?_sweep {work : List NodeId} (owned : (a.sweep work).owner? x = some owner) :
    a.owner? x = some owner := by
  by_cases covered : a.Covers work x
  · rw [owner?, find?_sweep_of_covers covered] at owned
    cases owned
  · rwa [owner?, find?_sweep_of_not_covers covered] at owned

theorem Consistent.sweep (h : a.Consistent) (apart : id ≠ xmlDeclaration)
    (unowned : a.owner? id = none) : (a.sweep [id]).Consistent where
  builtIn := by
    rw [find?_sweep_of_not_covers (h.not_covers_xmlDeclaration apart), h.builtIn]
  recorded {x node} found := by
    by_cases covered : a.Covers [id] x
    · rw [find?_sweep_of_covers covered] at found
      cases found
    · rw [find?_sweep_of_not_covers covered] at found
      exact h.recorded found
  counted := by
    have kept : (a.sweep [id]).find? xmlDeclaration = some xmlDeclarationNode := by
      rw [find?_sweep_of_not_covers (h.not_covers_xmlDeclaration apart), h.builtIn]
    have positive := occupied_pos kept
    have count := live_sweep a [id]
    have bound := occupied_sweep_le a [id]
    rw [h.counted] at count bound
    omega
  distinct p := by
    by_cases covered : a.Covers [id] p
    · rw [childrenAt, find?_sweep_of_covers covered]
      exact List.nodup_nil
    · rw [childrenAt, find?_sweep_of_not_covers covered]
      exact h.distinct p
  settled x := by
    by_cases covered : a.Covers [id] x
    · refine .of_unowned ?_ fun p q listed => ?_
      · rw [owner?, find?_sweep_of_covers covered]
        rfl
      · obtain ⟨outside, listed⟩ := (lists_sweep a [id]).1 listed
        exact outside (h.covers_owner unowned covered (h.lists_iff.1 listed).1)
    · have kept := find?_sweep_of_not_covers covered
      refine (h.settled x).congr (by rw [owner?, owner?, kept]) (by rw [place?, place?, kept])
        fun p q => ?_
      rw [lists_sweep, and_iff_right_iff_imp]
      exact fun listed inside => covered (inside.tail ⟨q, listed⟩)

end Sweep

/-- A node is released together with everything below it, if it has no owner. -/
theorem release_eq (a : Arena) (id : NodeId) : Edit.release id a
    = if id = xmlDeclaration then .error (.hierarchy .builtInReleased) a
      else match a.find? id with
      | none => .error (.notFound id) a
      | some node => match node.parent with
        | some owner => .error (.hierarchy (.stillOwned id owner)) a
        | none => .ok () (a.sweep [id]) := by
  rw [Edit.release]
  split
  next builtIn => rfl
  next other =>
    show (Edit.query (·.parent id) >>= _ : Edit Unit) a = _
    rw [Edit.query_bind, Arena.parent]
    cases found : a.find? id with
    | none =>
      rw [get_of_not_find? found]
      rfl
    | some node =>
      rw [get_of_find? found]
      show (match node.parent with
        | some owner => throw (.hierarchy (.stillOwned id owner))
        | none => modify (·.sweep [id]) : Edit Unit) a = match node.parent with
          | some owner => .error (.hierarchy (.stillOwned id owner)) a
          | none => .ok () (a.sweep [id])
      cases node.parent with
      | none => rfl
      | some owner => rfl

/-- A release succeeds for the live nodes without an owner, other than the built-in one,
and then it is a sweep. -/
theorem release_eq_ok_iff : Edit.release id a = .ok () a' ↔ id ≠ xmlDeclaration ∧
    (∃ node, a.find? id = some node ∧ node.parent = none) ∧ a' = a.sweep [id] := by
  rw [release_eq]
  by_cases builtIn : id = xmlDeclaration
  · rw [if_pos builtIn]
    exact iff_of_false nofun fun h => h.1 builtIn
  · rw [if_neg builtIn, and_iff_right builtIn]
    cases found : a.find? id with
    | none => simp
    | some node => cases owned : node.parent <;> simp [owned, eq_comm]

end XmlTree.Arena
