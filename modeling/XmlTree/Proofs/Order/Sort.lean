import Mathlib.Data.List.Sort
import XmlTree.Proofs.Order.Keys
import XmlTree.Proofs.Reachable

/-!
# Sorting

Sorting takes the key of every node and looks whether all keys are comparable with the
first.  Since nodes compare as their keys do, and comparability passes from node to node,
this finds any two nodes that do not compare.  The result is the one list of these nodes
that the comparison puts in order, so it does not depend on how they came
(`sortInPlace_eq_of_perm`).
-/

namespace XmlTree.Arena

variable {a : Arena} {config : Config} {x y : NodeId} {ids ids' sorted : List NodeId}
variable {entries : List (OrderKey × NodeId)}

/-! ## Keys of a list -/

/-- The nodes of a list, each with its key. -/
def keyed (a : Arena) (ids : List NodeId) : Except TreeError (List (OrderKey × NodeId)) :=
  ids.mapM fun id => return (← a.orderKey id, id)

/-- The nodes in the order of their keys. -/
def inKeyOrder (entries : List (OrderKey × NodeId)) : List NodeId :=
  (entries.mergeSort fun x y => (x.1.compare y.1).isLE).map Prod.snd

theorem keyed_cons (a : Arena) (id : NodeId) (rest : List NodeId) : a.keyed (id :: rest) = (do
    let key ← a.orderKey id
    let later ← a.keyed rest
    return (key, id) :: later) := by
  rw [keyed, List.mapM_cons]
  cases a.orderKey id <;> rfl

theorem keyed_eq_ok_iff : a.keyed ids = .ok entries ↔
    entries.map Prod.snd = ids ∧ ∀ entry ∈ entries, a.orderKey entry.2 = .ok entry.1 := by
  induction ids generalizing entries with
  | nil =>
    rw [keyed, List.mapM_nil, pure_eq_ok_iff]
    constructor
    · intro same
      subst same
      exact ⟨rfl, nofun⟩
    · intro ⟨nothing, _⟩
      exact (List.map_eq_nil_iff.1 nothing).symm
  | cons id rest ih =>
    rw [keyed_cons]
    simp only [bind_eq_ok_iff, pure_eq_ok_iff]
    constructor
    · rintro ⟨key, keyId, later, keyedRest, rfl⟩
      obtain ⟨names, keys⟩ := ih.1 keyedRest
      refine ⟨by rw [List.map_cons, names], fun entry member => ?_⟩
      rcases List.mem_cons.1 member with rfl | member
      · exact keyId
      · exact keys entry member
    · intro ⟨names, keys⟩
      cases entries with
      | nil => cases names
      | cons entry later =>
        rw [List.map_cons, List.cons.injEq] at names
        obtain ⟨rfl, names⟩ := names
        have keyedRest := ih.2 ⟨names, fun entry member => keys entry (.tail _ member)⟩
        exact ⟨entry.1, keys entry List.mem_cons_self, later, keyedRest, rfl⟩

/-- A list has keys when every node in it has one. -/
theorem exists_keyed (keys : ∀ id ∈ ids, ∃ key, a.orderKey id = .ok key) :
    ∃ entries, a.keyed ids = .ok entries := by
  induction ids with
  | nil => exact ⟨[], rfl⟩
  | cons id rest ih =>
    obtain ⟨key, keyId⟩ := keys id List.mem_cons_self
    obtain ⟨entries, keyedRest⟩ := ih fun x member => keys x (.tail _ member)
    obtain ⟨names, all⟩ := keyed_eq_ok_iff.1 keyedRest
    refine ⟨(key, id) :: entries, keyed_eq_ok_iff.2 ⟨by rw [List.map_cons, names], ?_⟩⟩
    intro entry member
    rcases List.mem_cons.1 member with rfl | member
    · exact keyId
    · exact all entry member

theorem checkComparable_cons_eq_ok_iff {first : OrderKey × NodeId} :
    checkComparable (first :: entries) = .ok () ↔
      ∀ entry ∈ entries, entry.1.comparable first.1 = true := by
  rw [checkComparable]
  cases found : entries.find? fun entry => !entry.1.comparable first.1 with
  | none => simpa [pure, Except.pure] using found
  | some entry =>
    have apart := List.find?_some found
    have member := List.mem_of_find?_eq_some found
    constructor
    · intro passed
      cases passed
    · intro all
      rw [all entry member] at apart
      cases apart

/-- A refused list names its first node and one that does not compare with it. -/
theorem of_checkComparable_error {e : TreeError} (refused : checkComparable entries = .error e) :
    ∃ first ∈ entries, ∃ entry ∈ entries, e = .unorderable first.2 entry.2 ∧
      entry.1.comparable first.1 = false := by
  cases entries with
  | nil => cases refused
  | cons first rest =>
    rw [checkComparable] at refused
    cases found : rest.find? fun entry => !entry.1.comparable first.1 with
    | none =>
      rw [found] at refused
      cases refused
    | some entry =>
      rw [found] at refused
      cases refused
      have apart := List.find?_some found
      have member := List.mem_of_find?_eq_some found
      exact ⟨first, List.mem_cons_self, entry, .tail _ member, rfl, by simpa using apart⟩

/-! ## Runs -/

theorem sortDocumentOrder_eq_ok_iff : a.sortDocumentOrder ids = .ok sorted ↔ ∃ entries,
    a.keyed ids = .ok entries ∧ checkComparable entries = .ok () ∧ inKeyOrder entries = sorted := by
  show (a.keyed ids >>= fun entries => checkComparable entries >>= fun _ =>
    pure (inKeyOrder entries)) = .ok sorted ↔ _
  simp only [bind_eq_ok_iff, pure_eq_ok_iff]
  constructor
  · intro ⟨entries, keys, _, checked, same⟩
    exact ⟨entries, keys, checked, same⟩
  · intro ⟨entries, keys, checked, same⟩
    exact ⟨entries, keys, (), checked, same⟩

theorem sortInPlace_run (a : Arena) (ids : List NodeId) : a.sortInPlace ids
    = match a.sortDocumentOrder ids with
      | .ok sorted => .ok () sorted
      | .error e => .error e ids := by
  show EStateM.bind (ofExcept (a.sortDocumentOrder ids)) EStateM.set ids = _
  cases a.sortDocumentOrder ids with
  | ok sorted => rfl
  | error e => rfl

theorem sortInPlace_eq_ok_iff : a.sortInPlace ids = .ok () sorted ↔
    a.sortDocumentOrder ids = .ok sorted := by
  rw [sortInPlace_run]
  cases a.sortDocumentOrder ids with
  | ok sorted' => simp
  | error e => simp

theorem sortInPlace_eq_error_iff {e : TreeError} : a.sortInPlace ids = .error e sorted ↔
    a.sortDocumentOrder ids = .error e ∧ sorted = ids := by
  rw [sortInPlace_run]
  cases a.sortDocumentOrder ids with
  | ok sorted' => simp
  | error e' => simp [eq_comm]

/-! ## Success -/

/-- Any two nodes of a list compare. -/
def AllCompare (a : Arena) (ids : List NodeId) : Prop :=
  ∀ x ∈ ids, ∀ y ∈ ids, ∃ o, a.compareOrder x y = .ok (some o)

theorem compareOrder_of_entries (h : a.Sound) (keys : a.keyed ids = .ok entries)
    {e e' : OrderKey × NodeId} (member : e ∈ entries) (member' : e' ∈ entries) :
    a.compareOrder e.2 e'.2
      = .ok (if e.1.comparable e'.1 = true then some (e.1.compare e'.1) else none) := by
  obtain ⟨_, all⟩ := keyed_eq_ok_iff.1 keys
  exact compareOrder_eq_of_orderKey h (all e member) (all e' member')

/-- What compares with one node of a list compares with every node of it. -/
theorem allCompare_of_checkComparable (h : a.Sound) (keys : a.keyed ids = .ok entries)
    (checked : checkComparable entries = .ok ()) : a.AllCompare ids := by
  obtain ⟨names, _⟩ := keyed_eq_ok_iff.1 keys
  cases entries with
  | nil =>
    rw [← names]
    exact fun x member => absurd member List.not_mem_nil
  | cons first rest =>
    have withFirst : ∀ e ∈ first :: rest, ∃ o, a.compareOrder e.2 first.2 = .ok (some o) := by
      intro e member
      have order := compareOrder_of_entries h keys member List.mem_cons_self
      rcases List.mem_cons.1 member with rfl | later
      · have near : e.1.comparable e.1 = true := by simp [OrderKey.comparable]
        rw [if_pos near] at order
        exact ⟨_, order⟩
      · rw [if_pos (checkComparable_cons_eq_ok_iff.1 checked e later)] at order
        exact ⟨_, order⟩
    rw [← names]
    intro x memberX y memberY
    obtain ⟨e, entryX, rfl⟩ := List.mem_map.1 memberX
    obtain ⟨e', entryY, rfl⟩ := List.mem_map.1 memberY
    obtain ⟨o, toFirst⟩ := withFirst e entryX
    obtain ⟨o', fromFirst⟩ := withFirst e' entryY
    have order := compareOrder_of_entries h keys entryX entryY
    have some := isSome_compareOrder_trans toFirst (compareOrder_swap fromFirst) order rfl rfl
    obtain ⟨o'', same⟩ := Option.isSome_iff_exists.1 some
    exact ⟨o'', by rw [order, same]⟩

theorem sortInPlace_succeeds_iff (h : a.Sound) : (∃ sorted, a.sortInPlace ids = .ok () sorted) ↔
    (∀ id ∈ ids, a.contains id = true) ∧ a.AllCompare ids := by
  simp only [sortInPlace_eq_ok_iff, sortDocumentOrder_eq_ok_iff]
  constructor
  · intro ⟨_, entries, keys, checked, _⟩
    refine ⟨fun id member => ?_, allCompare_of_checkComparable h keys checked⟩
    obtain ⟨names, all⟩ := keyed_eq_ok_iff.1 keys
    rw [← names] at member
    obtain ⟨e, entry, rfl⟩ := List.mem_map.1 member
    exact h.exists_orderKey_iff.1 ⟨e.1, all e entry⟩
  · intro ⟨live, compare⟩
    obtain ⟨entries, keys⟩ := exists_keyed fun id member => h.exists_orderKey_iff.2 (live id member)
    obtain ⟨names, _⟩ := keyed_eq_ok_iff.1 keys
    refine ⟨_, entries, keys, ?_, rfl⟩
    cases entries with
    | nil => rfl
    | cons first rest =>
      refine checkComparable_cons_eq_ok_iff.2 fun entry later => ?_
      have order := compareOrder_of_entries h keys (.tail _ later) List.mem_cons_self
      obtain ⟨o, compares⟩ := compare entry.2 (names ▸ List.mem_map_of_mem (.tail _ later))
        first.2 (names ▸ List.mem_map_of_mem List.mem_cons_self)
      rw [compares] at order
      cases near : entry.1.comparable first.1 with
      | true => rfl
      | false =>
        rw [near] at order
        cases order

/-! ## The sorted list -/

/-- One node stands before another or is the same. -/
def Precedes (a : Arena) (x y : NodeId) : Prop :=
  a.compareOrder x y = .ok (some .lt) ∨ a.compareOrder x y = .ok (some .eq)

theorem Precedes.antisymm (h : a.Precedes x y) (h' : a.Precedes y x) : x = y := by
  rcases h with less | same
  · have back := compareOrder_swap less
    rcases h' with less' | same'
    · rw [less'] at back
      cases back
    · exact (eq_of_compareOrder same').symm
  · exact eq_of_compareOrder same

theorem perm_inKeyOrder (entries : List (OrderKey × NodeId)) :
    (inKeyOrder entries).Perm (entries.map Prod.snd) :=
  (List.mergeSort_perm _ _).map Prod.snd

theorem pairwise_inKeyOrder (h : a.Sound) (keys : a.keyed ids = .ok entries)
    (compare : a.AllCompare ids) : (inKeyOrder entries).Pairwise a.Precedes := by
  have ascending : (entries.mergeSort fun x y => (x.1.compare y.1).isLE).Pairwise
      fun x y => (x.1.compare y.1).isLE = true :=
    List.pairwise_mergeSort (fun _ _ _ => Std.TransCmp.isLE_trans)
      (fun x y => by
        have back : y.1.compare x.1 = (x.1.compare y.1).swap := Std.OrientedCmp.eq_swap
        rw [back]
        cases x.1.compare y.1 <;> rfl) entries
  obtain ⟨names, _⟩ := keyed_eq_ok_iff.1 keys
  rw [inKeyOrder, List.pairwise_map]
  refine List.Pairwise.imp_of_mem ?_ ascending
  intro e e' member member' below
  have member := (List.mergeSort_perm _ _).mem_iff.1 member
  have member' := (List.mergeSort_perm _ _).mem_iff.1 member'
  have order := compareOrder_of_entries h keys member member'
  obtain ⟨o, compares⟩ := compare e.2 (names ▸ List.mem_map_of_mem member) e'.2
    (names ▸ List.mem_map_of_mem member')
  rw [compares] at order
  split at order
  next near =>
    cases order
    cases result : e.1.compare e'.1 with
    | lt => exact Or.inl (by rw [compares, result])
    | eq => exact Or.inr (by rw [compares, result])
    | gt =>
      rw [result] at below
      cases below
  next apart => cases order

theorem sortInPlace_sorts (h : a.Sound) (sorts : a.sortInPlace ids = .ok () sorted) :
    sorted.Perm ids ∧ sorted.Pairwise a.Precedes := by
  have compare := ((sortInPlace_succeeds_iff h).1 ⟨sorted, sorts⟩).2
  rw [sortInPlace_eq_ok_iff, sortDocumentOrder_eq_ok_iff] at sorts
  obtain ⟨entries, keys, _, rfl⟩ := sorts
  obtain ⟨names, _⟩ := keyed_eq_ok_iff.1 keys
  exact ⟨names ▸ perm_inKeyOrder entries, pairwise_inKeyOrder h keys compare⟩

/-- The order that nodes come in does not matter. -/
theorem sortInPlace_eq_of_perm (h : a.Sound) (perm : ids.Perm ids')
    (sorts : a.sortInPlace ids = .ok () sorted) : a.sortInPlace ids' = .ok () sorted := by
  obtain ⟨live, compare⟩ := (sortInPlace_succeeds_iff h).1 ⟨sorted, sorts⟩
  have live' : ∀ id ∈ ids', a.contains id = true := fun id member => live id (perm.mem_iff.2 member)
  have compare' : a.AllCompare ids' := fun x memberX y memberY =>
    compare x (perm.mem_iff.2 memberX) y (perm.mem_iff.2 memberY)
  obtain ⟨sorted', sorts'⟩ := (sortInPlace_succeeds_iff h).2 ⟨live', compare'⟩
  obtain ⟨here, ascends⟩ := sortInPlace_sorts h sorts
  obtain ⟨here', ascends'⟩ := sortInPlace_sorts h sorts'
  have same : sorted = sorted' :=
    ((here.trans perm).trans here'.symm).eq_of_pairwise
      (fun _ _ _ _ before after => before.antisymm after) ascends ascends'
  rw [sorts', same]

/-! ## Failure -/

theorem Sound.orderKey_error (h : a.Sound) {e : TreeError} (failed : a.orderKey x = .error e) :
    e = .notFound x := by
  cases found : a.find? x with
  | none =>
    rw [orderKey_of_missing found] at failed
    exact (Except.error.inj failed).symm
  | some node =>
    obtain ⟨key, keyed⟩ := h.exists_orderKey_iff.2 (contains_iff.2 ⟨node, found⟩)
    rw [keyed] at failed
    cases failed

theorem Sound.keyed_error (h : a.Sound) {e : TreeError} (failed : a.keyed ids = .error e) :
    ∃ id, e = .notFound id := by
  induction ids with
  | nil => cases failed
  | cons id rest ih =>
    rw [keyed_cons] at failed
    cases keyId : a.orderKey id with
    | error e' =>
      rw [keyId] at failed
      cases failed
      exact ⟨id, h.orderKey_error keyId⟩
    | ok key =>
      rw [keyId] at failed
      cases keyedRest : a.keyed rest with
      | error e' =>
        rw [keyedRest] at failed
        cases failed
        exact ih keyedRest
      | ok entries =>
        rw [keyedRest] at failed
        cases failed

/-- Two nodes that a sort names as its obstacle do not compare. -/
theorem Sound.compareOrder_of_unorderable (h : a.Sound)
    (failed : a.sortDocumentOrder ids = .error (.unorderable x y)) :
    x ∈ ids ∧ y ∈ ids ∧ a.compareOrder x y = .ok none := by
  change (a.keyed ids >>= fun entries => checkComparable entries >>= fun _ =>
    pure (inKeyOrder entries)) = _ at failed
  cases keys : a.keyed ids with
  | error e =>
    rw [keys] at failed
    obtain ⟨id, rfl⟩ := h.keyed_error keys
    cases failed
  | ok entries =>
    rw [keys] at failed
    change (checkComparable entries >>= fun _ => pure (inKeyOrder entries)) = _ at failed
    cases checked : checkComparable entries with
    | ok _ =>
      rw [checked] at failed
      cases failed
    | error e =>
      rw [checked] at failed
      cases failed
      obtain ⟨first, memberFirst, entry, member, same, apart⟩ := of_checkComparable_error checked
      cases same
      obtain ⟨names, _⟩ := keyed_eq_ok_iff.1 keys
      have order := compareOrder_of_entries h keys member memberFirst
      rw [apart] at order
      exact ⟨names ▸ List.mem_map_of_mem memberFirst, names ▸ List.mem_map_of_mem member,
        compareOrder_swap order⟩

/-! ## Sorting and comparing -/

/-- What the sort owes to the comparison. -/
structure SortLaws (a : Arena) : Prop where
  /-- A list is sorted when all its nodes are live and any two compare. -/
  succeeds : ∀ ids, (∃ sorted, a.sortInPlace ids = .ok () sorted) ↔
    (∀ id ∈ ids, a.contains id = true) ∧
      ∀ x ∈ ids, ∀ y ∈ ids, ∃ o, a.compareOrder x y = .ok (some o)
  /-- The sorted list has the same nodes, each as often, in ascending order. -/
  sorts : ∀ ids sorted, a.sortInPlace ids = .ok () sorted → sorted.Perm ids ∧
    sorted.Pairwise fun x y =>
      a.compareOrder x y = .ok (some .lt) ∨ a.compareOrder x y = .ok (some .eq)
  /-- Lists with the same nodes have the same sorted list. -/
  canonical : ∀ ids ids' sorted, ids.Perm ids' → a.sortInPlace ids = .ok () sorted →
    a.sortInPlace ids' = .ok () sorted
  /-- A list that cannot be sorted stays as it is. -/
  unchanged : ∀ ids e after, a.sortInPlace ids = .error e after → after = ids
  /-- Nodes that are named as not comparable are in the list and do not compare. -/
  obstacle : ∀ ids x y after, a.sortInPlace ids = .error (.unorderable x y) after →
    x ∈ ids ∧ y ∈ ids ∧ a.compareOrder x y = .ok none

/-- In every reachable arena the sort agrees with the comparison. -/
theorem Reachable.sortLaws (reachable : Reachable config a) : a.SortLaws where
  succeeds _ := sortInPlace_succeeds_iff reachable.sound
  sorts _ _ sorts := sortInPlace_sorts reachable.sound sorts
  canonical _ _ _ perm sorts := sortInPlace_eq_of_perm reachable.sound perm sorts
  unchanged _ _ _ failed := (sortInPlace_eq_error_iff.1 failed).2
  obstacle _ _ _ _ failed :=
    reachable.sound.compareOrder_of_unorderable (sortInPlace_eq_error_iff.1 failed).1

/-- Sorting in two documents and a detached tree. -/
theorem sortLaws_of_forest : ((Session.start {}).runAll
    [.createDocument none, .createElement none "a", .appendChild ⟨1⟩ ⟨2⟩, .createDocument none,
      .createElement none "b", .appendChild ⟨3⟩ ⟨4⟩, .addAttribute ⟨4⟩ none "k" "k" "v",
      .createText "t"]).arena.SortLaws :=
  Reachable.sortLaws (Reachable.runAll (s := .start {}) .empty _)

end XmlTree.Arena
