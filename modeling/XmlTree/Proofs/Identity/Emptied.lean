import XmlTree.Proofs.Frame.Moves
import XmlTree.Proofs.Identity.Lossless
import XmlTree.Proofs.Views

/-!
# What a release empties

A release follows what the nodes list, whatever that is.  In an arena that was read from
elsewhere an identity may be listed twice, by two nodes, or without being live.  Even there
the slots that a release empties are the live ones that the lists lead to, each counted
once (`Frees`).

In a reachable arena lists and owners agree.  The nodes that go are the released one and
those that have it among their ancestors, and no node that stays names one that is gone
(`ReleaseLaws`).
-/

namespace XmlTree.Arena

open Relation (ReflTransGen)

variable {a a' : Arena} {id owner x : NodeId} {node : Node}

/-! ## Emptied slots -/

/-- The live identities, in slot order. -/
def liveIds (a : Arena) : List NodeId :=
  ((List.range a.slots.size).map NodeId.mk).filter fun id => a.contains id

/-- The identities that are live in the first arena and not in the second. -/
def emptied (a a' : Arena) : List NodeId := a.liveIds.filter fun id => !a'.contains id

theorem mem_liveIds_iff : id ∈ a.liveIds ↔ a.contains id = true := by
  rw [liveIds, List.mem_filter, and_iff_right_iff_imp]
  intro live
  exact List.mem_map.2 ⟨id.index, List.mem_range.2 (index_lt_of_contains live), rfl⟩

theorem nodup_liveIds (a : Arena) : a.liveIds.Nodup :=
  (List.nodup_range.map fun _ _ => NodeId.mk.inj).filter _

theorem length_liveIds (a : Arena) : a.liveIds.length = a.occupied := by
  have slots : (List.range a.slots.size).map (fun i => (a.find? ⟨i⟩)) = a.slots.toList := by
    refine List.ext_getElem (by simp) fun i inside inside' => ?_
    rw [List.getElem_map, List.getElem_range, find?, Array.getElem?_eq_getElem inside']
    rfl
  rw [liveIds, ← List.countP_eq_length_filter, List.countP_map, occupied, ← Array.countP_toList,
    ← slots, List.countP_map]
  rfl

theorem mem_emptied_iff :
    x ∈ a.emptied a' ↔ a.contains x = true ∧ ¬ a'.contains x = true := by
  rw [emptied, List.mem_filter, mem_liveIds_iff, Bool.not_eq_true', Bool.not_eq_true]

theorem nodup_emptied (a a' : Arena) : (a.emptied a').Nodup := a.nodup_liveIds.filter _

/-- What is gone and what is left are together what there was. -/
theorem occupied_eq_of_shrunk (size : a'.slots.size = a.slots.size)
    (shrunk : ∀ x, a'.contains x = true → a.contains x = true) :
    a.occupied = a'.occupied + (a.emptied a').length := by
  have left : a.liveIds.filter (fun id => a'.contains id) = a'.liveIds := by
    rw [liveIds, liveIds, List.filter_filter, size]
    refine List.filter_congr fun x _ => ?_
    rw [Bool.eq_iff_iff, Bool.and_eq_true, and_iff_left_iff_imp]
    exact shrunk x
  rw [← length_liveIds, ← length_liveIds, List.length_eq_length_filter_add, left, emptied]

/-! ## Any arena -/

/-- What a successful release does to an arena, whatever the lists in it say. -/
structure Frees (a : Arena) (id : NodeId) (a' : Arena) : Prop where
  /-- The slots that are emptied held nodes that the lists lead to from the released one. -/
  emptied : ∀ x, x ∈ a.emptied a' ↔ a.contains x = true ∧ ReflTransGen a.Holds id x
  /-- No slot is emptied twice. -/
  once : (a.emptied a').Nodup
  /-- The other slots are as they were, and no slot comes or goes. -/
  kept : ∀ x, x ∉ a.emptied a' → a'.find? x = a.find? x
  size : a'.slots.size = a.slots.size
  /-- The settings are the same. -/
  config : a'.config = a.config
  /-- The count goes down by the number of emptied slots, if it is as large as that. -/
  counted : (a.emptied a').length ≤ a.live → a'.live + (a.emptied a').length = a.live

theorem occupied_sweep (a : Arena) (id : NodeId) :
    a.occupied = (a.sweep [id]).occupied + (a.emptied (a.sweep [id])).length :=
  occupied_eq_of_shrunk (a.alike_univ.sweep fun _ _ => Set.mem_univ _).2.size
    fun _ live => (contains_sweep_iff.1 live).1

theorem frees_sweep (a : Arena) (id : NodeId) : a.Frees id (a.sweep [id]) where
  emptied x := by
    rw [mem_emptied_iff, contains_sweep_iff, not_and, not_not]
    exact ⟨fun ⟨live, gone⟩ => ⟨live, gone live⟩, fun ⟨live, below⟩ => ⟨live, fun _ => below⟩⟩
  once := nodup_emptied _ _
  kept x stays := by
    by_cases covered : a.Covers [id] x
    · -- What is below and stays has been an empty slot all along.
      have missing := find?_sweep_of_covers covered
      cases found : a.find? x with
      | none => exact missing
      | some node =>
        have gone : ¬ (a.sweep [id]).contains x = true := by simp [contains, missing]
        exact absurd (mem_emptied_iff.2 ⟨contains_iff.2 ⟨node, found⟩, gone⟩) stays
    · exact find?_sweep_of_not_covers covered
  size := (a.alike_univ.sweep fun _ _ => Set.mem_univ _).2.size
  config := config_sweep a [id]
  counted enough := by
    have count := live_sweep a [id]
    have less := occupied_sweep a id
    omega

/-! ## Consistent arenas -/

/-- What a release does to an arena whose lists and owners agree. -/
structure ReleaseLaws (a : Arena) : Prop where
  /-- A release succeeds for the live nodes without a parent, other than the built-in one. -/
  succeeds : ∀ id, (∃ a', Edit.release id a = .ok () a') ↔
    id ≠ xmlDeclaration ∧ a.parent id = .ok none
  /-- The released node goes and what has it among its ancestors, and nothing else. -/
  emptied : ∀ id a', Edit.release id a = .ok () a' →
    ∀ x, x ∈ a.emptied a' ↔ x = id ∨ id ∈ a.ancestors x
  /-- The count is large enough to go down by that many. -/
  counted : ∀ id a', Edit.release id a = .ok () a' → a'.live + (a.emptied a').length = a.live
  /-- No node that stays has a node that is gone as its parent, as a child or in a map. -/
  forgotten : ∀ id a', Edit.release id a = .ok () a' → ∀ x node, a'.find? x = some node →
    ∀ gone ∈ a.emptied a', node.parent ≠ some gone ∧ gone ∉ node.kind.owned

/-- What is below a live node is live. -/
theorem Consistent.contains_of_reaches (h : a.Consistent) (live : a.contains id = true)
    (reaches : ReflTransGen a.Holds id x) : a.contains x = true := by
  rcases reaches.cases_tail with rfl | ⟨y, _, place, listed⟩
  · exact live
  · obtain ⟨kind, found, _⟩ := h.find?_of_lists listed
    exact contains_iff.2 ⟨_, found⟩

theorem Sound.mem_emptied_sweep_iff (h : a.Sound) (live : a.contains id = true) :
    x ∈ a.emptied (a.sweep [id]) ↔ x = id ∨ id ∈ a.ancestors x := by
  rw [(frees_sweep a id).emptied x, ← eq_comm (a := id), ← List.mem_cons,
    mem_cons_ancestors_iff h.founded, ← h.reaches_iff, and_iff_right_iff_imp]
  exact h.contains_of_reaches live

/-- Node 0 stays, so the count is large enough. -/
theorem Consistent.live_sweep_add (h : a.Consistent) (apart : id ≠ xmlDeclaration) :
    (a.sweep [id]).live + (a.emptied (a.sweep [id])).length = a.live := by
  have kept : (a.sweep [id]).find? xmlDeclaration = some xmlDeclarationNode := by
    rw [find?_sweep_of_not_covers (h.not_covers_xmlDeclaration apart), h.builtIn]
  have positive := occupied_pos kept
  have less := occupied_sweep a id
  have counted := h.counted
  exact (frees_sweep a id).counted (by omega)

/-- In a consistent arena a node names live nodes only. -/
theorem Consistent.contains_of_named (h : a.Consistent) (found : a.find? x = some node)
    {named : NodeId} (names : node.parent = some named ∨ named ∈ node.kind.owned) :
    a.contains named = true := by
  rcases names with owner | owned
  · exact contains_iff.2 (h.exists_find?_owner ((owner?_of_find? found).trans owner))
  · obtain ⟨place, listed⟩ := (exists_lists_iff found).2 owned
    obtain ⟨kind, live, _⟩ := h.find?_of_lists listed
    exact contains_iff.2 ⟨_, live⟩

theorem Sound.releaseLaws (h : a.Sound) : a.ReleaseLaws where
  succeeds id := by
    rw [parent_eq_ok_iff]
    simp only [release_eq_ok_iff, exists_and_left, exists_eq, and_true]
  emptied id a' ran := by
    obtain ⟨_, ⟨node, found, _⟩, rfl⟩ := release_eq_ok_iff.1 ran
    exact fun x => h.mem_emptied_sweep_iff (contains_iff.2 ⟨node, found⟩)
  counted id a' ran := by
    obtain ⟨apart, _, rfl⟩ := release_eq_ok_iff.1 ran
    exact h.live_sweep_add apart
  forgotten id a' ran x node found gone member := by
    obtain ⟨apart, ⟨top, foundTop, noParent⟩, rfl⟩ := release_eq_ok_iff.1 ran
    have left := h.toConsistent.sweep apart ((owner?_of_find? foundTop).trans noParent)
    have dead := (mem_emptied_iff.1 member).2
    exact ⟨fun owner => dead (left.contains_of_named found (.inl owner)),
      fun owned => dead (left.contains_of_named found (.inr owned))⟩

/-- A release empties the slots that the lists lead to, in every arena.  In a reachable one
these are the slots of the released node and of what is below it. -/
theorem release_frees (a : Arena) :
    (∀ id a', Edit.release id a = .ok () a' → a.Frees id a') ∧
      ∀ config, Reachable config a → a.ReleaseLaws := by
  refine ⟨fun id a' ran => ?_, fun config reachable => reachable.sound.releaseLaws⟩
  obtain ⟨_, _, rfl⟩ := release_eq_ok_iff.1 ran
  exact frees_sweep a id

/-- The release of a document that lists its text twice and a slot that does not exist,
beside another document that lists the same text, and the releases of a reachable arena with
an element that has an attribute and a text. -/
theorem release_frees_of_tangled :
    let tangled : Arena :=
      { slots := #[some xmlDeclarationNode, some ⟨⟨1⟩, none, .document ⟨0, none, [⟨2⟩, ⟨2⟩, ⟨9⟩]⟩⟩,
          some ⟨⟨2⟩, some ⟨1⟩, .text "t"⟩, some ⟨⟨3⟩, none, .document ⟨1, none, [⟨2⟩]⟩⟩]
        live := 3
        config := {} }
    tangled.Frees ⟨1⟩ (tangled.sweep [⟨1⟩]) ∧ ((Session.start {}).runAll
      [.createElement none "e", .addAttribute ⟨1⟩ none "k" "k" "v", .createText "t",
        .appendChild ⟨1⟩ ⟨3⟩]).arena.ReleaseLaws := by
  refine ⟨(release_frees _).1 _ _ (release_eq_ok_iff.2 ⟨?other, ⟨_, rfl, rfl⟩, rfl⟩), ?laws⟩
  case other => decide
  case laws => exact (release_frees _).2 _ (Reachable.runAll (s := .start {}) .empty _)

end XmlTree.Arena
