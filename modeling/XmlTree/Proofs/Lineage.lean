import Mathlib.Data.List.Perm.Subperm
import Mathlib.Data.List.Range
import Mathlib.Logic.Relation
import Mathlib.Order.WellFounded
import XmlTree.Arena.Lineage
import XmlTree.Proofs.Ownership.Place

/-!
# Lineages without circles

An arena is *founded* when no chain of owners goes on for ever.  A climb then comes
to its end before it runs out of steps, so a lineage is the chain of owners that it
is meant to be (`traces_lineage`) and follows the owners one by one
(`lineage_of_owner`).  The identities on it are the node and everything above it
(`mem_ids_lineage_iff`).

The depth of a node is bounded by the number of slots.  This gives a second
induction, from the nodes further down to those further up (`Founded.below`).

A new owner keeps an arena founded unless it lies below the node it gets
(`Founded.of_link`).
-/

namespace XmlTree

open Relation (ReflTransGen TransGen)

variable {a a' : Arena} {id owner x : NodeId} {node : Node}

/-- One identity names another as its owner. -/
def Arena.Owns (a : Arena) (owner id : NodeId) : Prop := a.owner? id = some owner

/-- No chain of owners goes on for ever. -/
def Arena.Founded (a : Arena) : Prop := WellFounded a.Owns

/-! ## Chains of owners -/

/-- A lineage is a chain of owners in an arena, up to its end. -/
def Lineage.Traces (a : Arena) : Lineage → Prop
  | .top id node => a.find? id = some node ∧ node.parent = none
  | .missing id => a.find? id = none
  | .step id node above => a.find? id = some node ∧ node.parent = some above.first ∧ above.Traces a

namespace Lineage

theorem first_mem_ids (lineage : Lineage) : lineage.first ∈ lineage.ids := by
  cases lineage <;> simp [first, ids]

namespace Traces

variable {lineage : Lineage}

theorem owns_first {above : Lineage} (h : (step id node above).Traces a) :
    a.Owns above.first id := (Arena.owner?_of_find? h.1).trans h.2.1

theorem not_owns_top (h : (top id node).Traces a) : ¬ a.Owns x id := by
  intro owned
  have := (Arena.owner?_of_find? h.1).symm.trans owned
  rw [h.2] at this
  cases this

theorem not_owns_missing (h : (missing id).Traces a) : ¬ a.Owns x id := by
  intro owned
  obtain ⟨node, found, _⟩ := Arena.exists_find?_of_owner? owned
  have := h.symm.trans found
  cases this

/-- A chain of owners holds a node and everything above it. -/
theorem mem_ids_iff (h : lineage.Traces a) :
    x ∈ lineage.ids ↔ ReflTransGen a.Owns x lineage.first := by
  induction lineage with
  | top id node =>
    rw [ids, List.mem_singleton]
    constructor
    · intro same
      subst same
      exact .refl
    · intro above
      rcases above.cases_tail with same | ⟨y, _, owned⟩
      · exact same.symm
      · exact absurd owned h.not_owns_top
  | missing id =>
    rw [ids, List.mem_singleton]
    constructor
    · intro same
      subst same
      exact .refl
    · intro above
      rcases above.cases_tail with same | ⟨y, _, owned⟩
      · exact same.symm
      · exact absurd owned h.not_owns_missing
  | step id node above ih =>
    rw [ids, List.mem_cons, ih h.2.2]
    constructor
    · rintro (rfl | higher)
      · exact .refl
      · exact higher.tail h.owns_first
    · intro higher
      rcases higher.cases_tail with same | ⟨y, higher, owned⟩
      · exact Or.inl same.symm
      · have same : y = above.first := Option.some.inj (Eq.trans owned.symm h.owns_first)
        exact Or.inr (same ▸ higher)

theorem nodup_ids (founded : a.Founded) (h : lineage.Traces a) : lineage.ids.Nodup := by
  induction lineage with
  | top id node => simp [ids]
  | missing id => simp [ids]
  | step id node above ih =>
    rw [ids, List.nodup_cons]
    refine ⟨fun member => ?_, ih h.2.2⟩
    have circle : TransGen a.Owns id id := .tail' (h.2.2.mem_ids_iff.1 member) h.owns_first
    exact founded.transGen.irrefl.irrefl id circle

/-- All identities on a chain are live but perhaps the last. -/
theorem length_ids_le_add_one (h : lineage.Traces a) :
    ∃ live : List NodeId, live.Sublist lineage.ids ∧ (∀ id ∈ live, a.contains id = true) ∧
      lineage.ids.length ≤ live.length + 1 := by
  induction lineage with
  | top id node => exact ⟨[], by simp, by simp, by simp [ids]⟩
  | missing id => exact ⟨[], by simp, by simp, by simp [ids]⟩
  | step id node above ih =>
    obtain ⟨live, sub, lives, long⟩ := ih h.2.2
    refine ⟨id :: live, sub.cons_cons id, ?_, ?_⟩
    · intro x member
      rcases List.mem_cons.1 member with rfl | member
      · exact Arena.contains_iff.2 ⟨node, h.1⟩
      · exact lives x member
    · rw [ids, List.length_cons, List.length_cons]
      omega

end Traces

end Lineage

namespace Arena

theorem index_lt_of_contains (live : a.contains id = true) : id.index < a.slots.size := by
  obtain ⟨node, found⟩ := contains_iff.1 live
  rw [find?, Option.join_eq_some_iff] at found
  exact (Array.getElem?_eq_some_iff.1 found).1

/-- There are no more live identities than slots. -/
theorem length_le_of_contains {live : List NodeId} (nodup : live.Nodup)
    (lives : ∀ id ∈ live, a.contains id = true) : live.length ≤ a.slots.size := by
  have indices : (live.map NodeId.index).Nodup :=
    nodup.map fun x y same => by cases x; cases y; exact congrArg NodeId.mk same
  have inside : live.map NodeId.index ⊆ List.range a.slots.size := by
    intro i member
    obtain ⟨id, here, rfl⟩ := List.mem_map.1 member
    exact List.mem_range.2 (index_lt_of_contains (lives id here))
  simpa using (List.Nodup.subperm indices inside).length_le

end Arena

namespace Lineage.Traces

variable {lineage lineage' : Lineage}

theorem length_ids_le (founded : a.Founded) (h : lineage.Traces a) :
    lineage.ids.length ≤ a.slots.size + 1 := by
  obtain ⟨live, sub, lives, long⟩ := h.length_ids_le_add_one
  have := Arena.length_le_of_contains ((h.nodup_ids founded).sublist sub) lives
  omega

/-- A climb with steps enough gives the whole chain. -/
theorem lineageWithin_eq {fuel : Nat} (h : lineage.Traces a) (long : lineage.ids.length ≤ fuel) :
    a.lineageWithin fuel lineage.first = lineage := by
  induction lineage generalizing fuel with
  | top id node =>
    cases fuel with
    | zero => simp [ids] at long
    | succ fuel => simp only [first, Arena.lineageWithin, h.1, h.2]
  | missing id =>
    have none : a.find? id = none := h
    cases fuel with
    | zero => simp [ids] at long
    | succ fuel => simp only [first, Arena.lineageWithin, none]
  | step id node above ih =>
    cases fuel with
    | zero => simp [ids] at long
    | succ fuel =>
      rw [ids, List.length_cons] at long
      have higher := ih h.2.2 (Nat.le_of_succ_le_succ long)
      show a.lineageWithin (fuel + 1) id = _
      simp only [Arena.lineageWithin, h.1, h.2.1, higher]

end Lineage.Traces

namespace Arena

/-! ## The lineage of a node -/

/-- Every chain of owners comes to its end. -/
theorem Founded.exists_traces (founded : a.Founded) (id : NodeId) :
    ∃ lineage : Lineage, lineage.Traces a ∧ lineage.first = id := by
  induction id using founded.induction with
  | _ id ih =>
    cases found : a.find? id with
    | none => exact ⟨.missing id, found, rfl⟩
    | some node =>
      cases owned : node.parent with
      | none => exact ⟨.top id node, ⟨found, owned⟩, rfl⟩
      | some owner =>
        obtain ⟨above, traces, rfl⟩ := ih owner ((owner?_of_find? found).trans owned)
        exact ⟨.step id node above, ⟨found, owned, traces⟩, rfl⟩

theorem Founded.lineage_eq (founded : a.Founded) {lineage : Lineage} (traces : lineage.Traces a) :
    a.lineage lineage.first = lineage :=
  traces.lineageWithin_eq (traces.length_ids_le founded)

theorem traces_lineage (founded : a.Founded) (id : NodeId) : (a.lineage id).Traces a := by
  obtain ⟨lineage, traces, rfl⟩ := founded.exists_traces id
  rw [founded.lineage_eq traces]
  exact traces

theorem first_lineageWithin (a : Arena) (fuel : Nat) (id : NodeId) :
    (a.lineageWithin fuel id).first = id := by
  cases fuel with
  | zero => rfl
  | succ fuel =>
    rw [lineageWithin]
    cases a.find? id with
    | none => rfl
    | some node =>
      cases owned : node.parent with
      | none => simp only [owned, Lineage.first]
      | some owner => simp only [owned, Lineage.first]

theorem first_lineage (a : Arena) (id : NodeId) : (a.lineage id).first = id :=
  first_lineageWithin a _ id

theorem lineage_of_missing (found : a.find? id = none) : a.lineage id = .missing id := by
  rw [lineage, lineageWithin, found]

theorem lineage_of_top (found : a.find? id = some node) (unowned : node.parent = none) :
    a.lineage id = .top id node := by
  simp only [lineage, lineageWithin, found, unowned]

/-- A lineage goes on with the lineage of the owner. -/
theorem lineage_of_owner (founded : a.Founded) (found : a.find? id = some node)
    (owned : node.parent = some owner) : a.lineage id = .step id node (a.lineage owner) := by
  have traces : (Lineage.step id node (a.lineage owner)).Traces a :=
    ⟨found, by rw [first_lineage, owned], traces_lineage founded owner⟩
  exact founded.lineage_eq traces

/-- The lineage of a node holds the node and everything above it. -/
theorem mem_ids_lineage_iff (founded : a.Founded) :
    x ∈ (a.lineage id).ids ↔ ReflTransGen a.Owns x id := by
  rw [(traces_lineage founded id).mem_ids_iff, first_lineage]

/-! ## Going down -/

theorem length_ids_of_owner (founded : a.Founded) (owned : a.owner? id = some owner) :
    (a.lineage id).ids.length = (a.lineage owner).ids.length + 1 := by
  obtain ⟨node, found, parent⟩ := exists_find?_of_owner? owned
  rw [lineage_of_owner founded found parent, Lineage.ids, List.length_cons]

theorem length_ids_lineage_le (founded : a.Founded) (id : NodeId) :
    (a.lineage id).ids.length ≤ a.slots.size + 1 :=
  (traces_lineage founded id).length_ids_le founded

theorem length_ids_lineage_pos (a : Arena) (id : NodeId) : 0 < (a.lineage id).ids.length :=
  List.length_pos_of_mem (Lineage.first_mem_ids _)

/-- No way down goes on for ever either. -/
theorem Founded.below (founded : a.Founded) : WellFounded fun id owner => a.Owns owner id := by
  have measure : WellFounded fun id owner : NodeId =>
      a.slots.size + 1 - (a.lineage id).ids.length
        < a.slots.size + 1 - (a.lineage owner).ids.length :=
    InvImage.wf (fun id => a.slots.size + 1 - (a.lineage id).ids.length) Nat.lt_wfRel.wf
  refine Subrelation.wf (fun {id owner} owned => ?_) measure
  have deeper := length_ids_of_owner founded owned
  have bound := length_ids_lineage_le founded id
  show _ < _
  omega

/-! ## Other owners -/

theorem Founded.mono (founded : a.Founded)
    (owners : ∀ id owner, a'.owner? id = some owner → a.owner? id = some owner) : a'.Founded :=
  Subrelation.wf (fun {owner id} owned => owners id owner owned) founded

/-- An arena stays founded when a node gets an owner that is not below it. -/
theorem Founded.of_link (founded : a.Founded) {parent child : NodeId}
    (apart : ¬ ReflTransGen a.Owns child parent)
    (owners : ∀ id owner, a'.owner? id = some owner →
      a.owner? id = some owner ∨ (id = child ∧ owner = parent)) : a'.Founded := by
  -- Above the new owner nothing has changed, since the node is not there.
  have outside : ∀ id, ¬ ReflTransGen a.Owns child id → Acc a'.Owns id := by
    intro id
    induction id using founded.induction with
    | _ id ih =>
      intro outsider
      constructor
      intro owner owned
      rcases owners id owner owned with old | ⟨rfl, rfl⟩
      · exact ih owner old fun below => outsider (below.tail old)
      · exact absurd ReflTransGen.refl outsider
  constructor
  intro id
  induction id using founded.induction with
  | _ id ih =>
    constructor
    intro owner owned
    rcases owners id owner owned with old | ⟨rfl, rfl⟩
    · exact ih owner old
    · exact outside owner apart

end Arena

end XmlTree
