import XmlTree.Proofs.Snapshot

/-!
# The two node maps step by step

An element has a map of its attributes and one of its declarations.  They differ in their keys
and in how these are written down, which is a `MapKind`: the rest is said once for both.

What a map has to hold after a list of steps is said on plain lists of entries, which know
nothing of distinct keys (`MapStep.onEntries`).  The work is in one step, and in the pairs of a
restored map: a step does to the entries what it does to the plain list (`entries_run`), so the
whole run does (`entries_after`).  What a map answers is then read off its keys.

Keys are compared by the characters of their texts.  An absent text is the same as another
absent text only, so not as the empty one (`SameText`).
-/

namespace XmlTree

variable {κ : Type} [DecidableEq κ]

/-! ## Kinds of maps -/

/-- Whether two texts, which may be absent, are both absent or have the same characters. -/
def SameText : Option String → Option String → Prop
  | none, none => True
  | some s, some t => s.toList = t.toList
  | none, some _ => False
  | some _, none => False

theorem sameText_iff {s t : Option String} : SameText s t ↔ s = t := by
  cases s <;> cases t <;> simp [SameText, String.toList_inj]

/-- The keys of a map, and how the map is written and read. -/
structure MapKind (κ : Type) [DecidableEq κ] where
  /-- Whether two keys are the same. -/
  Same : κ → κ → Prop
  /-- The same keys are equal keys. -/
  same_iff : ∀ {k k'}, Same k k' ↔ k = k'
  /-- The written form of a key. -/
  encodeKey : κ → Snapshot.Value
  /-- The map that is written in a value. -/
  decode : Snapshot.Value → Option (OrderedMap κ NodeId)
  /-- Pairs are read as the map that they make up, if their identities fit. -/
  decode_encodePairs : ∀ {pairs m}, decode (Snapshot.encodePairs encodeKey pairs) = some m ↔
    (∀ pair ∈ pairs, pair.2.Fits) ∧ OrderedMap.ofList pairs = m

/-- Attributes by expanded name. -/
def attributeMaps : MapKind ExpandedName where
  Same name name' :=
    SameText name.namespaceUri name'.namespaceUri ∧ name.localName.toList = name'.localName.toList
  same_iff {name name'} := by
    cases name
    cases name'
    rw [sameText_iff, String.toList_inj, ExpandedName.mk.injEq]
  encodeKey := Snapshot.encodeName
  decode := Snapshot.decodeAttributes
  decode_encodePairs := Snapshot.readsBack_name.pairs _ _

/-- Declarations by prefix. -/
def namespaceMaps : MapKind (Option String) where
  Same := SameText
  same_iff := sameText_iff
  encodeKey := Snapshot.encodeText?
  decode := Snapshot.decodeDeclarations
  decode_encodePairs := Snapshot.readsBack_text?.pairs _ _

/-! ## Steps -/

/-- What is done to a map. -/
inductive MapStep (κ : Type) where
  /-- An identity is put under a key. -/
  | set (key : κ) (id : NodeId)
  /-- What is under a key is taken out. -/
  | remove (key : κ)
  /-- The map is read again from pairs. -/
  | restore (pairs : List (κ × NodeId))

/-- What a step leads to.  Pairs that cannot be read leave the map as it is. -/
def MapStep.run (kind : MapKind κ) (m : OrderedMap κ NodeId) : MapStep κ → OrderedMap κ NodeId
  | .set key id => (m.set key id).2
  | .remove key => (m.remove key).2
  | .restore pairs => (kind.decode (Snapshot.encodePairs kind.encodeKey pairs)).getD m

/-- What a step does to a list of entries: a value is put in its place or at the end, the first
entry under a key is taken out, or pairs whose identities fit are put one by one into an empty
list. -/
def MapStep.onEntries (entries : List (κ × NodeId)) : MapStep κ → List (κ × NodeId)
  | .set key id => rebind key id entries
  | .remove key => entries.eraseP fun entry => entry.1 = key
  | .restore pairs =>
      if ∀ pair ∈ pairs, pair.2.index < Arena.slotLimit then
        pairs.foldl (fun entries pair => rebind pair.1 pair.2 entries) []
      else entries

namespace MapKind

variable {kind : MapKind κ} {m : OrderedMap κ NodeId} {key : κ}

/-- The map that steps make of an empty one. -/
def after (kind : MapKind κ) (steps : List (MapStep κ)) : OrderedMap κ NodeId :=
  steps.foldl (MapStep.run kind) ∅

theorem decode_of_fits {pairs : List (κ × NodeId)} (fits : ∀ pair ∈ pairs, pair.2.Fits) :
    kind.decode (Snapshot.encodePairs kind.encodeKey pairs) = some (OrderedMap.ofList pairs) :=
  kind.decode_encodePairs.2 ⟨fits, rfl⟩

theorem decode_of_not_fits {pairs : List (κ × NodeId)} (wide : ¬ ∀ pair ∈ pairs, pair.2.Fits) :
    kind.decode (Snapshot.encodePairs kind.encodeKey pairs) = none :=
  Option.eq_none_iff_forall_ne_some.2 fun _ read => wide (kind.decode_encodePairs.1 read).1

theorem entries_run (kind : MapKind κ) (m : OrderedMap κ NodeId) (step : MapStep κ) :
    (step.run kind m).entries = step.onEntries m.entries := by
  cases step with
  | set key id => exact m.entries_insert key id
  | remove key => exact m.entries_erase key
  | restore pairs =>
    rw [MapStep.run, MapStep.onEntries]
    split
    next fits =>
      rw [decode_of_fits fits, Option.getD_some]
      exact OrderedMap.entries_foldl_insert_eq_foldl_rebind pairs ∅
    next wide => rw [decode_of_not_fits wide, Option.getD_none]

theorem entries_after (kind : MapKind κ) (steps : List (MapStep κ)) :
    (kind.after steps).entries = steps.foldl MapStep.onEntries [] := by
  have run : ∀ m : OrderedMap κ NodeId,
      (steps.foldl (MapStep.run kind) m).entries = steps.foldl MapStep.onEntries m.entries := by
    induction steps with
    | nil => exact fun _ => rfl
    | cons step rest ih =>
      intro m
      rw [List.foldl_cons, List.foldl_cons, ih, entries_run]
  exact run ∅

/-- A restored map is the one that is set pair by pair. -/
theorem after_sets (kind : MapKind κ) (pairs : List (κ × NodeId)) :
    kind.after (pairs.map fun pair => .set pair.1 pair.2) = OrderedMap.ofList pairs := by
  rw [after, List.foldl_map]
  rfl

/-! ## The laws of one map -/

/-- What a map answers about its keys. -/
structure Answers (kind : MapKind κ) (m : OrderedMap κ NodeId) : Prop where
  /-- No two keys are the same. -/
  distinct : m.keys.Pairwise fun k k' => ¬ kind.Same k k'
  /-- A key has a position exactly if it is the key there. -/
  position : ∀ key i, m.position? key = some i ↔ ∃ k, m.keys[i]? = some k ∧ kind.Same k key
  /-- A key with a position has the identity there. -/
  present : ∀ key i, m.position? key = some i →
    m.contains key = true ∧ ∃ id, m.values[i]? = some id ∧ m.get? key = some id
  /-- A key without a position has none. -/
  absent : ∀ key, m.position? key = none → m.contains key = false ∧ m.get? key = none

/-- What the three steps do to a map, and what they answer. -/
structure StepLaws (kind : MapKind κ) (m : OrderedMap κ NodeId) : Prop where
  /-- Under a known key the identity is replaced and answered.  All keys stay where they are. -/
  setKnown : ∀ key id old, m.get? key = some old → ∃ m', m.set key id = (some old, m') ∧
    (∀ k, m'.position? k = m.position? k) ∧
      ∀ k, m'.get? k = if key = k then some id else m.get? k
  /-- A new key goes to the end. -/
  setNew : ∀ key id, m.get? key = none → ∃ m', m.set key id = (none, m') ∧
    m'.entries = m.entries ++ [(key, id)]
  /-- A known key is taken out with its identity.  What was before and after it stays. -/
  removeKnown : ∀ key old, m.get? key = some old → ∃ m' before behind,
    m.remove key = (some old, m') ∧ m.entries = before ++ (key, old) :: behind ∧
      m'.entries = before ++ behind
  /-- An unknown key cannot be taken out. -/
  removeUnknown : ∀ key, m.get? key = none → m.remove key = (none, m)

/-- What is read from pairs, whatever was there before. -/
structure RestoreLaws (kind : MapKind κ) (pairs : List (κ × NodeId)) (m : OrderedMap κ NodeId) :
    Prop where
  /-- The map is the one that is set pair by pair, starting from an empty one. -/
  sets : m = kind.after (pairs.map fun pair => .set pair.1 pair.2)
  /-- The keys are in the order of their first pairs. -/
  firstPlace : m.keys = (pairs.map Prod.fst).eraseDups
  /-- Each key has the identity of its last pair. -/
  lastValue : ∀ key, m.get? key = pairs.reverse.lookup key

theorem answers (kind : MapKind κ) (m : OrderedMap κ NodeId) : kind.Answers m where
  distinct := List.Pairwise.imp (fun other same => other (kind.same_iff.1 same)) m.nodup
  position key i := by simp only [kind.same_iff, exists_eq_right, OrderedMap.position?_eq_some_iff]
  present key i place := by
    have known : key ∈ m.keys := List.mem_of_getElem? (OrderedMap.position?_eq_some_iff.1 place)
    obtain ⟨id, found⟩ := Option.isSome_iff_exists.1 (OrderedMap.isSome_get?_iff.2 known)
    have value := m.get?_eq_bind_position? key
    rw [place, Option.bind_some] at value
    exact ⟨Option.isSome_of_eq_some found, id, value.symm.trans found, found⟩
  absent key noPlace := by
    have unknown := OrderedMap.get?_eq_none_iff.2 (OrderedMap.position?_eq_none_iff.1 noPlace)
    rw [OrderedMap.contains, unknown]
    exact ⟨rfl, rfl⟩

theorem stepLaws (kind : MapKind κ) (m : OrderedMap κ NodeId) : kind.StepLaws m where
  setKnown key id old found := by
    have known : key ∈ m.keys := OrderedMap.isSome_get?_iff.1 (Option.isSome_of_eq_some found)
    refine ⟨m.insert key id, by rw [OrderedMap.set, found], fun k => ?_,
      fun k => m.get?_insert key k id⟩
    rw [OrderedMap.position?, OrderedMap.keys_insert, if_pos known, OrderedMap.position?]
  setNew key id unknown :=
    ⟨m.insert key id, by rw [OrderedMap.set, unknown],
      OrderedMap.entries_insert_of_fresh id unknown⟩
  removeKnown key old found := by
    have entry : (key, old) ∈ m.entries := OrderedMap.mem_entries_iff.2 found
    obtain ⟨⟨k, id⟩, before, behind, -, here, parts, rest⟩ :=
      List.exists_of_eraseP (p := fun entry => entry.1 = key) entry (decide_eq_true rfl)
    obtain rfl : k = key := of_decide_eq_true here
    have same : m.get? k = some id := by
      rw [← OrderedMap.mem_entries_iff, parts]
      exact List.mem_append_right _ List.mem_cons_self
    obtain rfl : id = old := Option.some.inj (same.symm.trans found)
    exact ⟨m.erase k, before, behind, by rw [OrderedMap.remove, found], parts,
      (m.entries_erase k).trans rest⟩
  removeUnknown key unknown := by
    have kept : m.erase key = m := by
      refine OrderedMap.ext ((m.entries_erase key).trans (List.eraseP_of_forall_not ?_))
      intro entry member here
      have fresh := OrderedMap.get?_eq_none_iff.1 unknown
      exact fresh (of_decide_eq_true here ▸ List.mem_map_of_mem member)
    rw [OrderedMap.remove, unknown, kept]

theorem restoreLaws (kind : MapKind κ) (pairs : List (κ × NodeId)) :
    kind.RestoreLaws pairs (OrderedMap.ofList pairs) where
  sets := (kind.after_sets pairs).symm
  firstPlace := OrderedMap.keys_ofList pairs
  lastValue := OrderedMap.get?_ofList pairs

-- A repeated key stands where it came first, with the identity that came last.
example : (OrderedMap.ofList [("a", NodeId.mk 1), ("b", ⟨2⟩), ("a", ⟨3⟩)]).entries =
    [("a", ⟨3⟩), ("b", ⟨2⟩)] := by decide

/-! ## The laws of a run -/

/-- What holds of the maps of one kind, whatever was done to them. -/
structure Laws (kind : MapKind κ) : Prop where
  /-- The entries are those of the plain list that the steps were done to. -/
  entries : ∀ steps, (kind.after steps).entries = steps.foldl MapStep.onEntries []
  /-- No two keys of that list are the same. -/
  distinct : ∀ steps : List (MapStep κ),
    ((steps.foldl MapStep.onEntries []).map Prod.fst).Pairwise fun k k' => ¬ kind.Same k k'
  /-- A map that steps lead to answers by its keys. -/
  answers : ∀ steps, kind.Answers (kind.after steps)
  /-- One more step does what it should. -/
  steps : ∀ steps, kind.StepLaws (kind.after steps)
  /-- Pairs are read exactly if their identities fit, and make up one map then. -/
  restored : ∀ pairs, (∃ m, kind.decode (Snapshot.encodePairs kind.encodeKey pairs) = some m) ↔
    ∀ pair ∈ pairs, pair.2.Fits
  /-- That map is set pair by pair. -/
  restore : ∀ pairs m, kind.decode (Snapshot.encodePairs kind.encodeKey pairs) = some m →
    kind.RestoreLaws pairs m

theorem laws (kind : MapKind κ) : kind.Laws where
  entries := kind.entries_after
  distinct steps := kind.entries_after steps ▸ (kind.answers _).distinct
  answers steps := kind.answers _
  steps steps := kind.stepLaws _
  restored pairs := by simp only [kind.decode_encodePairs, exists_and_left, exists_eq', and_true]
  restore pairs m read := by
    obtain ⟨-, rfl⟩ := kind.decode_encodePairs.1 read
    exact kind.restoreLaws pairs

end MapKind

/-- The map laws, for attributes and for declarations. -/
theorem nodeMapLaws : attributeMaps.Laws ∧ namespaceMaps.Laws :=
  ⟨attributeMaps.laws, namespaceMaps.laws⟩

end XmlTree
