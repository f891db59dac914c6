import Mathlib.Data.List.Nodup
import XmlTree.OrderedMap

/-!
# Laws of ordered maps

Reading a map is described by `get?`.  `get?_insert` and `get?_erase` say what the
two changes do to it, and `mem_entries_iff` that the entries hold nothing else.  An inserted
key keeps the place it had, or comes last (`rebind`).

Of entries with repeated keys only the first under each key is ever found (`firsts`).  A map
that takes in entries one by one, and leaves out those under known keys, ends up with these
(`entries_add_eq_firsts`, `firsts_firsts_append`).

A map that is made of pairs has their keys in the order in which these first come, each with
the value that it has last (`keys_ofList`, `get?_ofList`).

The place of a key is the place of its entry, so the places of the keys go up along
the map (`pairwise_position?`), and what is found under a key is the value in its place
(`get?_eq_bind_position?`).
-/

namespace XmlTree

universe u v w

variable {κ : Type u} {ν : Type v} [DecidableEq κ]

/-! ## Entry lists -/

theorem lookup_cons_eq_ite (key k : κ) (value : ν) (rest : List (κ × ν)) :
    ((key, value) :: rest).lookup k = if key = k then some value else rest.lookup k := by
  rw [List.lookup_cons]
  by_cases h : key = k
  · simp [h]
  · rw [if_neg h, beq_eq_false_iff_ne.2 (Ne.symm h)]

theorem lookup_eq_some_iff_mem {entries : List (κ × ν)} (distinct : (entries.map Prod.fst).Nodup)
    {key : κ} {value : ν} : entries.lookup key = some value ↔ (key, value) ∈ entries := by
  induction entries with
  | nil => simp
  | cons entry rest ih =>
    obtain ⟨key', value'⟩ := entry
    rw [List.map_cons, List.nodup_cons] at distinct
    rw [lookup_cons_eq_ite, List.mem_cons, Prod.mk.injEq]
    by_cases h : key' = key
    · subst h
      have absent : (key', value) ∉ rest := fun member =>
        distinct.1 (List.mem_map.2 ⟨_, member, rfl⟩)
      simp [absent, eq_comm]
    · simp [h, Ne.symm h, ih distinct.2]

theorem lookup_upsert {entries : List (κ × ν)} {key k : κ} {value : ν} :
    (upsert key value entries).lookup k = if key = k then some value else entries.lookup k := by
  induction entries with
  | nil => rw [upsert, lookup_cons_eq_ite]
  | cons entry rest ih =>
    obtain ⟨key', value'⟩ := entry
    by_cases here : key' = key
    · subst here
      rw [upsert, if_pos rfl, lookup_cons_eq_ite, lookup_cons_eq_ite]
      split <;> rfl
    · rw [upsert, if_neg here, lookup_cons_eq_ite, lookup_cons_eq_ite, ih]
      by_cases h : key = k
      · subst h
        simp [here]
      · rw [if_neg h, if_neg h]

theorem lookup_dropKey {entries : List (κ × ν)} {key k : κ} :
    (dropKey key entries).lookup k = if key = k then none else entries.lookup k := by
  induction entries with
  | nil => simp [dropKey]
  | cons entry rest ih =>
    obtain ⟨key', value'⟩ := entry
    rw [dropKey] at ih ⊢
    by_cases here : key' = key
    · subst here
      rw [List.filter_cons_of_neg (by simp), ih, lookup_cons_eq_ite]
      split <;> rfl
    · rw [List.filter_cons_of_pos (by simpa using here), lookup_cons_eq_ite, lookup_cons_eq_ite, ih]
      by_cases h : key = k
      · subst h
        simp [here]
      · rw [if_neg h, if_neg h]

/-- A new key goes to the end. -/
theorem upsert_of_not_mem {key : κ} (value : ν) {entries : List (κ × ν)}
    (fresh : key ∉ entries.map Prod.fst) :
    upsert key value entries = entries ++ [(key, value)] := by
  induction entries with
  | nil => rfl
  | cons entry rest ih =>
    rw [List.map_cons, List.mem_cons, not_or] at fresh
    rw [upsert, if_neg (Ne.symm fresh.1), ih fresh.2, List.cons_append]

/-- A value that is there already changes nothing. -/
theorem upsert_of_lookup {key : κ} {value : ν} {entries : List (κ × ν)}
    (found : entries.lookup key = some value) : upsert key value entries = entries := by
  induction entries with
  | nil => cases found
  | cons entry rest ih =>
    obtain ⟨key', value'⟩ := entry
    rw [lookup_cons_eq_ite] at found
    rw [upsert]
    split at found
    next here =>
      cases found
      rw [if_pos here, here]
    next other => rw [if_neg other, ih found]

/-- Entries with a value under a key: in the place of the key if it has one, at the end if it
has none. -/
def rebind (key : κ) (value : ν) (entries : List (κ × ν)) : List (κ × ν) :=
  if key ∈ entries.map Prod.fst then
    entries.map fun entry => if entry.1 = key then (key, value) else entry
  else entries ++ [(key, value)]

theorem upsert_eq_rebind {entries : List (κ × ν)} (distinct : (entries.map Prod.fst).Nodup)
    (key : κ) (value : ν) : upsert key value entries = rebind key value entries := by
  rw [rebind]
  split
  next known =>
    induction entries with
    | nil => cases known
    | cons entry rest ih =>
      rw [List.map_cons, List.nodup_cons] at distinct
      rw [upsert, List.map_cons]
      split
      next here =>
        have others : ∀ e ∈ rest, (if e.1 = key then (key, value) else e) = e := by
          refine fun e member => if_neg fun same => distinct.1 ?_
          exact List.mem_map.2 ⟨e, member, same.trans here.symm⟩
        rw [List.map_congr_left others, List.map_id']
      next other =>
        rw [ih distinct.2 ((List.mem_cons.1 known).resolve_left (Ne.symm other))]
  next fresh => exact upsert_of_not_mem value fresh

/-- With distinct keys there is one entry at most to drop. -/
theorem dropKey_eq_eraseP {entries : List (κ × ν)} (distinct : (entries.map Prod.fst).Nodup)
    (key : κ) : dropKey key entries = entries.eraseP fun entry => entry.1 = key := by
  induction entries with
  | nil => rfl
  | cons entry rest ih =>
    rw [List.map_cons, List.nodup_cons] at distinct
    rw [dropKey] at ih ⊢
    by_cases here : entry.1 = key
    · have others : ∀ e ∈ rest, decide (e.1 ≠ key) = true := by
        refine fun e member => decide_eq_true fun same => distinct.1 ?_
        exact List.mem_map.2 ⟨e, member, same.trans here.symm⟩
      rw [List.filter_cons_of_neg (by simpa using here),
        List.eraseP_cons_of_pos (by simpa using here), List.filter_eq_self.2 others]
    · rw [List.filter_cons_of_pos (by simpa using here),
        List.eraseP_cons_of_neg (by simpa using here), ih distinct.2]

/-- In a list without repetition an element is found where it stands. -/
theorem idxOf?_getElem {xs : List κ} (distinct : xs.Nodup) (i : Nat) (h : i < xs.length) :
    xs.idxOf? xs[i] = some i := by
  rw [List.idxOf?_eq_some_iff]
  refine ⟨h, rfl, fun j hj same => ?_⟩
  have : j = i := (List.Nodup.getElem_inj_iff distinct).1 same
  omega

theorem eraseDups_of_nodup {xs : List κ} (distinct : xs.Nodup) : xs.eraseDups = xs := by
  induction xs with
  | nil => rfl
  | cons x rest ih =>
    rw [List.nodup_cons] at distinct
    have others : rest.filter (fun y => !y == x) = rest := by
      refine List.filter_eq_self.2 fun y member => ?_
      simpa using ne_of_mem_of_not_mem member distinct.1
    rw [List.eraseDups_cons, others, ih distinct.2]

/-- What has come before is a repetition. -/
theorem eraseDups_append_cons_of_mem {xs ys : List κ} {x : κ} (known : x ∈ xs) :
    (xs ++ x :: ys).eraseDups = (xs ++ ys).eraseDups := by
  have passed : (x :: ys).removeAll xs = ys.removeAll xs :=
    List.filter_cons_of_neg (by simpa using known)
  rw [List.eraseDups_append, List.eraseDups_append, passed]

/-! ## First entries -/

/-- The entries whose key no earlier entry has. -/
def firsts : List (κ × ν) → List (κ × ν)
  | [] => []
  | entry :: rest => entry :: dropKey entry.1 (firsts rest)

theorem dropKey_dropKey (key k : κ) (entries : List (κ × ν)) :
    dropKey key (dropKey k entries) = dropKey k (dropKey key entries) := by
  simp only [dropKey, List.filter_filter, Bool.and_comm]

theorem dropKey_self (key : κ) (entries : List (κ × ν)) :
    dropKey key (dropKey key entries) = dropKey key entries := by
  simp only [dropKey, List.filter_filter, Bool.and_self]

theorem dropKey_firsts (key : κ) (entries : List (κ × ν)) :
    dropKey key (firsts entries) = firsts (dropKey key entries) := by
  induction entries with
  | nil => rfl
  | cons entry rest ih =>
    rw [firsts]
    by_cases here : entry.1 = key
    · have skipped : ∀ more : List (κ × ν), dropKey key (entry :: more) = dropKey key more :=
        fun more => List.filter_cons_of_neg (by simpa using here)
      rw [skipped, skipped, here, dropKey_self, ih]
    · have kept : ∀ more : List (κ × ν), dropKey key (entry :: more) = entry :: dropKey key more :=
        fun more => List.filter_cons_of_pos (by simpa using here)
      rw [kept, kept, firsts, dropKey_dropKey, ih]

/-- What comes first in a list comes first among its first entries and more. -/
theorem firsts_firsts_append (entries more : List (κ × ν)) :
    firsts (firsts entries ++ more) = firsts (entries ++ more) := by
  induction entries with
  | nil => rfl
  | cons entry rest ih =>
    have drops : ∀ e e' : List (κ × ν), dropKey entry.1 (e ++ e')
        = dropKey entry.1 e ++ dropKey entry.1 e' := List.filter_append
    calc firsts (firsts (entry :: rest) ++ more)
      _ = entry :: firsts (dropKey entry.1 (dropKey entry.1 (firsts rest) ++ more)) := by
        rw [firsts, List.cons_append, firsts, dropKey_firsts]
      _ = entry :: dropKey entry.1 (firsts (firsts rest ++ more)) := by
        rw [drops, dropKey_self, ← drops, dropKey_firsts]
      _ = firsts (entry :: rest ++ more) := by
        rw [ih, List.cons_append, firsts]

/-- Entries with distinct keys are all first. -/
theorem firsts_of_nodup {entries : List (κ × ν)} (distinct : (entries.map Prod.fst).Nodup) :
    firsts entries = entries := by
  induction entries with
  | nil => rfl
  | cons entry rest ih =>
    rw [List.map_cons, List.nodup_cons] at distinct
    rw [firsts, ih distinct.2, dropKey, List.filter_eq_self.2]
    intro other member
    refine decide_eq_true fun same => distinct.1 ?_
    exact List.mem_map.2 ⟨other, member, same⟩

/-- An entry under a known key is never first. -/
theorem firsts_append_singleton_of_mem {entries : List (κ × ν)} {entry : κ × ν}
    (known : entry.1 ∈ entries.map Prod.fst) : firsts (entries ++ [entry]) = firsts entries := by
  induction entries with
  | nil => cases known
  | cons other rest ih =>
    rw [List.cons_append, firsts, firsts]
    by_cases same : entry.1 = other.1
    · rw [dropKey_firsts, dropKey_firsts, dropKey, List.filter_append,
        List.filter_cons_of_neg (by simpa using same), List.filter_nil, List.append_nil, dropKey]
    · rw [List.map_cons, List.mem_cons] at known
      rw [ih (known.resolve_left same)]

/-- The value of a key is the value of its first entry. -/
theorem lookup_firsts (entries : List (κ × ν)) (key : κ) :
    (firsts entries).lookup key = entries.lookup key := by
  induction entries with
  | nil => rfl
  | cons entry rest ih =>
    obtain ⟨key', value⟩ := entry
    rw [firsts, lookup_cons_eq_ite, lookup_cons_eq_ite, lookup_dropKey, ih]
    split <;> rfl

namespace OrderedMap

/-! ## Reading -/

theorem get?_empty (key : κ) : (∅ : OrderedMap κ ν).get? key = none := rfl

/-- An entry is what the map gives for its key. -/
theorem mem_entries_iff {m : OrderedMap κ ν} {key : κ} {value : ν} :
    (key, value) ∈ m.entries ↔ m.get? key = some value :=
  (lookup_eq_some_iff_mem m.nodup).symm

theorem isSome_get?_iff {m : OrderedMap κ ν} {key : κ} :
    (m.get? key).isSome = true ↔ key ∈ m.entries.map Prod.fst := by
  rw [Option.isSome_iff_exists, List.mem_map]
  constructor
  · intro ⟨value, found⟩
    exact ⟨(key, value), mem_entries_iff.2 found, rfl⟩
  · rintro ⟨⟨_, value⟩, member, rfl⟩
    exact ⟨value, mem_entries_iff.1 member⟩

theorem get?_eq_none_iff {m : OrderedMap κ ν} {key : κ} : m.get? key = none ↔ key ∉ m.keys := by
  rw [← Option.not_isSome_iff_eq_none, isSome_get?_iff, keys]

theorem mem_values_iff {m : OrderedMap κ ν} {value : ν} :
    value ∈ m.values ↔ ∃ key, m.get? key = some value := by
  rw [values, List.mem_map]
  constructor
  · rintro ⟨⟨key, value'⟩, member, rfl⟩
    exact ⟨key, mem_entries_iff.1 member⟩
  · intro ⟨key, found⟩
    exact ⟨(key, value), mem_entries_iff.2 found, rfl⟩

/-- A new value is seen under its own key only. -/
theorem get?_insert (m : OrderedMap κ ν) (key k : κ) (value : ν) :
    (m.insert key value).get? k = if key = k then some value else m.get? k :=
  lookup_upsert

/-- A value that is there already changes nothing. -/
theorem insert_eq_self {m : OrderedMap κ ν} {key : κ} {value : ν}
    (found : m.get? key = some value) : m.insert key value = m :=
  ext (upsert_of_lookup found)

theorem entries_insert (m : OrderedMap κ ν) (key : κ) (value : ν) :
    (m.insert key value).entries = rebind key value m.entries :=
  upsert_eq_rebind m.nodup key value

theorem entries_insert_of_fresh {m : OrderedMap κ ν} {key : κ} (value : ν)
    (fresh : m.get? key = none) : (m.insert key value).entries = m.entries ++ [(key, value)] :=
  upsert_of_not_mem value (get?_eq_none_iff.1 fresh)

theorem keys_insert (m : OrderedMap κ ν) (key : κ) (value : ν) :
    (m.insert key value).keys = if key ∈ m.keys then m.keys else m.keys ++ [key] := by
  rw [keys, entries_insert, rebind]
  split
  next known =>
    have same :
        (fun entry : κ × ν => (if entry.1 = key then (key, value) else entry).1) = Prod.fst := by
      funext entry
      split
      next here => exact here.symm
      next other => rfl
    rw [List.map_map]
    exact (congrArg (m.entries.map ·) same).trans (if_pos known).symm
  next fresh =>
    rw [List.map_append]
    exact (if_neg fresh).symm

theorem entries_erase (m : OrderedMap κ ν) (key : κ) :
    (m.erase key).entries = m.entries.eraseP fun entry => entry.1 = key :=
  dropKey_eq_eraseP m.nodup key

/-- An erased key has no value and the others are as before. -/
theorem get?_erase (m : OrderedMap κ ν) (key k : κ) :
    (m.erase key).get? k = if key = k then none else m.get? k :=
  lookup_dropKey

/-- A value that replaces another stands where the other stood. -/
theorem values_insert_of_get? [DecidableEq ν] {m : OrderedMap κ ν} {key : κ} {old : ν} (value : ν)
    (stands : m.get? key = some old) (once : ∀ k, m.get? k = some old → k = key) :
    (m.insert key value).values = m.values.map fun v => if v = old then value else v := by
  have known : key ∈ m.entries.map Prod.fst := by
    rw [← isSome_get?_iff, stands]
    rfl
  rw [values, entries_insert, rebind, if_pos known, values, List.map_map, List.map_map]
  refine List.map_congr_left fun entry member => ?_
  have found := mem_entries_iff.1 member
  show (if entry.1 = key then (key, value) else entry).2 = if entry.2 = old then value else entry.2
  by_cases here : entry.1 = key
  · rw [here, stands] at found
    rw [if_pos here, if_pos (Option.some.inj found).symm]
  · have other : entry.2 ≠ old := fun same => here (once _ (same ▸ found))
    rw [if_neg here, if_neg other]

/-- A value that replaces nothing comes last. -/
theorem values_insert_of_fresh {m : OrderedMap κ ν} {key : κ} (value : ν)
    (fresh : m.get? key = none) : (m.insert key value).values = m.values ++ [value] := by
  rw [values, entries_insert_of_fresh value fresh, List.map_append]
  rfl

/-- Without a key the value is missing that stood under it. -/
theorem values_erase_of_get? [DecidableEq ν] {m : OrderedMap κ ν} {key : κ} {old : ν}
    (stands : m.get? key = some old) (once : ∀ k, m.get? k = some old → k = key) :
    (m.erase key).values = m.values.filter (· ≠ old) := by
  rw [values, values, List.filter_map]
  refine congrArg _ (List.filter_congr fun entry member => decide_eq_decide.2 (not_congr ?_))
  have found := mem_entries_iff.1 member
  constructor
  · intro here
    rw [here, stands] at found
    exact (Option.some.inj found).symm
  · intro same
    exact once _ (same ▸ found)

/-- An entry is added to a map at the end, if its key is new. -/
theorem entries_add_eq_firsts (m : OrderedMap κ ν) (key : κ) (value : ν) :
    (if m.contains key then m else m.insert key value).entries
      = firsts (m.entries ++ [(key, value)]) := by
  have known : m.contains key = true ↔ key ∈ m.entries.map Prod.fst := isSome_get?_iff
  split
  next there =>
    rw [firsts_append_singleton_of_mem (known.1 there), firsts_of_nodup m.nodup]
  next new =>
    have added : (m.insert key value).entries = m.entries ++ [(key, value)] :=
      upsert_of_not_mem value (mt known.2 new)
    rw [← added, firsts_of_nodup (m.insert key value).nodup]

section Levels

variable {ι : Type w} {p : κ × ν → Prop} [DecidablePred p]

theorem lookup_filter_entries (m : OrderedMap κ ν) (key : κ) :
    (m.entries.filter p).lookup key = (m.get? key).filter fun value => p (key, value) := by
  refine Option.ext fun value => ?_
  rw [lookup_eq_some_iff_mem (m.nodup.sublist (List.filter_sublist.map Prod.fst)),
    List.mem_filter, mem_entries_iff, Option.filter_eq_some_iff]

/-- In maps that are put one after the other a key has the value that the first of them has
for it. -/
theorem lookup_flatMap_entries (maps : ι → OrderedMap κ ν) (levels : List ι) (key : κ) :
    ((levels.flatMap fun i => (maps i).entries).filter p).lookup key
      = levels.findSome? fun i => ((maps i).get? key).filter fun value => p (key, value) := by
  induction levels with
  | nil => rfl
  | cons i rest ih =>
    rw [List.flatMap_cons, List.filter_append, List.lookup_append, lookup_filter_entries, ih,
      List.findSome?_cons]
    cases ((maps i).get? key).filter fun value => p (key, value) <;> rfl

end Levels

/-! ## Making -/

/-- Pairs under new keys are added in their order. -/
theorem entries_foldl_insert {pairs : List (κ × ν)} {m : OrderedMap κ ν}
    (distinct : ((m.entries ++ pairs).map Prod.fst).Nodup) :
    (pairs.foldl (fun m pair => m.insert pair.1 pair.2) m).entries = m.entries ++ pairs := by
  induction pairs generalizing m with
  | nil => exact (List.append_nil _).symm
  | cons pair rest ih =>
    have added : (m.insert pair.1 pair.2).entries = m.entries ++ [pair] := by
      refine upsert_of_not_mem pair.2 fun known => ?_
      rw [List.map_append, List.map_cons, List.nodup_append] at distinct
      exact distinct.2.2 _ known _ List.mem_cons_self rfl
    have moved : m.entries ++ pair :: rest = (m.insert pair.1 pair.2).entries ++ rest := by
      rw [added, List.append_assoc, List.singleton_append]
    rw [moved] at distinct ⊢
    exact ih distinct

theorem entries_foldl_insert_eq_foldl_rebind (pairs : List (κ × ν)) (m : OrderedMap κ ν) :
    (pairs.foldl (fun m pair => m.insert pair.1 pair.2) m).entries
      = pairs.foldl (fun entries pair => rebind pair.1 pair.2 entries) m.entries := by
  induction pairs generalizing m with
  | nil => rfl
  | cons pair rest ih => rw [List.foldl_cons, ih, entries_insert, List.foldl_cons]

/-- Keys come in the order in which they are first inserted. -/
theorem keys_foldl_insert (pairs : List (κ × ν)) (m : OrderedMap κ ν) :
    (pairs.foldl (fun m pair => m.insert pair.1 pair.2) m).keys
      = (m.keys ++ pairs.map Prod.fst).eraseDups := by
  induction pairs generalizing m with
  | nil =>
    rw [List.map_nil, List.append_nil, List.foldl_nil]
    exact (eraseDups_of_nodup m.nodup).symm
  | cons pair rest ih =>
    rw [List.foldl_cons, ih, keys_insert, List.map_cons]
    split
    next known => rw [eraseDups_append_cons_of_mem known]
    next fresh => rw [List.append_assoc, List.singleton_append]

/-- The value that is inserted last under a key is the one that it has. -/
theorem get?_foldl_insert (pairs : List (κ × ν)) (m : OrderedMap κ ν) (key : κ) :
    (pairs.foldl (fun m pair => m.insert pair.1 pair.2) m).get? key
      = (pairs.reverse.lookup key).or (m.get? key) := by
  induction pairs generalizing m with
  | nil => rfl
  | cons pair rest ih =>
    rw [List.foldl_cons, ih, get?_insert, List.reverse_cons, List.lookup_append, Option.or_assoc,
      lookup_cons_eq_ite, List.lookup_nil]
    split <;> rfl

theorem keys_ofList (pairs : List (κ × ν)) :
    (ofList pairs).keys = (pairs.map Prod.fst).eraseDups :=
  keys_foldl_insert pairs ∅

theorem get?_ofList (pairs : List (κ × ν)) (key : κ) :
    (ofList pairs).get? key = pairs.reverse.lookup key :=
  (get?_foldl_insert pairs ∅ key).trans (Option.or_none)

/-- A map is made again from its entries. -/
theorem ofList_entries (m : OrderedMap κ ν) : ofList m.entries = m :=
  ext (entries_foldl_insert (m := ∅) m.nodup)

/-! ## Places -/

/-- A key with a value has a place. -/
theorem exists_position?_of_get? {m : OrderedMap κ ν} {key : κ} {value : ν}
    (found : m.get? key = some value) : ∃ i, m.position? key = some i := by
  have member : key ∈ m.keys := List.mem_map.2 ⟨_, mem_entries_iff.2 found, rfl⟩
  obtain ⟨i, h, rfl⟩ := List.getElem_of_mem member
  exact ⟨i, idxOf?_getElem m.nodup i h⟩

theorem position?_eq_some_iff {m : OrderedMap κ ν} {key : κ} {i : Nat} :
    m.position? key = some i ↔ m.keys[i]? = some key := by
  rw [List.getElem?_eq_some_iff]
  constructor
  · intro place
    obtain ⟨inside, same, _⟩ := List.idxOf?_eq_some_iff.1 place
    exact ⟨inside, same⟩
  · rintro ⟨inside, rfl⟩
    exact idxOf?_getElem m.nodup i inside

theorem position?_eq_none_iff {m : OrderedMap κ ν} {key : κ} :
    m.position? key = none ↔ key ∉ m.keys :=
  List.idxOf?_eq_none_iff

/-- A key has the value that stands in its place. -/
theorem get?_eq_bind_position? (m : OrderedMap κ ν) (key : κ) :
    m.get? key = (m.position? key).bind fun i => m.values[i]? := by
  cases place : m.position? key with
  | none =>
    rw [Option.bind_none, get?_eq_none_iff]
    exact position?_eq_none_iff.1 place
  | some i =>
    obtain ⟨inside, rfl⟩ := List.getElem?_eq_some_iff.1 (position?_eq_some_iff.1 place)
    have here : i < m.entries.length := by rwa [keys, List.length_map] at inside
    have entry : (m.entries[i].1, m.entries[i].2) ∈ m.entries := List.getElem_mem here
    rw [Option.bind_some, values, List.getElem?_map, List.getElem?_eq_getElem here, Option.map_some,
      ← mem_entries_iff.1 entry]
    simp only [keys, List.getElem_map]

/-- The places of the keys go up along the entries. -/
theorem pairwise_position? (m : OrderedMap κ ν) :
    m.entries.Pairwise fun e e' =>
      ∃ i j, m.position? e.1 = some i ∧ m.position? e'.1 = some j ∧ i < j := by
  rw [List.pairwise_iff_getElem]
  intro i j hi hj hij
  have hi' : i < m.keys.length := by rwa [keys, List.length_map]
  have hj' : j < m.keys.length := by rwa [keys, List.length_map]
  have placeI : m.position? m.keys[i] = some i := idxOf?_getElem m.nodup i hi'
  have placeJ : m.position? m.keys[j] = some j := idxOf?_getElem m.nodup j hj'
  simp only [keys, List.getElem_map] at placeI placeJ
  exact ⟨i, j, placeI, placeJ, hij⟩

end OrderedMap

end XmlTree
