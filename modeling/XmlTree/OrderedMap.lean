/-!
# Maps in insertion order

An `OrderedMap` is a list of entries with distinct keys.  Inserting under a new
key appends an entry.  Inserting under a known key replaces the value and leaves
the entry where it was.  Erasing keeps the order of the other entries.

The two working functions, `upsert` and `dropKey`, act on plain entry lists; the
map adds to them that the keys stay distinct (`nodup_keys_upsert`,
`nodup_keys_dropKey`).
-/

namespace XmlTree

universe u v

/-! ## Entry lists -/

section Entries

variable {κ : Type u} {ν : Type v} [DecidableEq κ]

/-- Puts `value` under `key`: in place if the key is there, at the end otherwise. -/
def upsert (key : κ) (value : ν) : List (κ × ν) → List (κ × ν)
  | [] => [(key, value)]
  | entry :: rest =>
      if entry.1 = key then (key, value) :: rest else entry :: upsert key value rest

/-- The entries under every key but `key`. -/
def dropKey (key : κ) (entries : List (κ × ν)) : List (κ × ν) :=
  entries.filter fun entry => entry.1 ≠ key

theorem mem_keys_upsert {key k : κ} {value : ν} {entries : List (κ × ν)} :
    k ∈ (upsert key value entries).map Prod.fst ↔ k = key ∨ k ∈ entries.map Prod.fst := by
  induction entries with
  | nil => simp [upsert]
  | cons entry rest ih =>
    by_cases h : entry.1 = key
    · simp [upsert, h]
    · simp only [upsert, h, if_false, List.map_cons, List.mem_cons, ih]
      exact or_left_comm

theorem nodup_keys_upsert {key : κ} {value : ν} {entries : List (κ × ν)}
    (distinct : (entries.map Prod.fst).Nodup) :
    ((upsert key value entries).map Prod.fst).Nodup := by
  induction entries with
  | nil => simp [upsert]
  | cons entry rest ih =>
    by_cases h : entry.1 = key
    · subst h
      simpa only [upsert, if_true, List.map_cons] using distinct
    · rw [List.map_cons, List.nodup_cons] at distinct
      rw [upsert, if_neg h, List.map_cons, List.nodup_cons, mem_keys_upsert, not_or]
      exact ⟨⟨h, distinct.1⟩, ih distinct.2⟩

theorem nodup_keys_dropKey {key : κ} {entries : List (κ × ν)}
    (distinct : (entries.map Prod.fst).Nodup) :
    ((dropKey key entries).map Prod.fst).Nodup :=
  distinct.sublist (List.filter_sublist.map Prod.fst)

end Entries

/-! ## The map -/

/-- A map whose entries keep the order in which their keys first came. -/
structure OrderedMap (κ : Type u) (ν : Type v) where
  /-- The entries, oldest first. -/
  entries : List (κ × ν)
  /-- No key has two entries. -/
  nodup : (entries.map Prod.fst).Nodup
deriving DecidableEq

namespace OrderedMap

variable {κ : Type u} {ν : Type v}

@[ext]
theorem ext {m m' : OrderedMap κ ν} (h : m.entries = m'.entries) : m = m' := by
  cases m; cases m'; cases h; rfl

/-- The map without entries. -/
def empty : OrderedMap κ ν := ⟨[], List.nodup_nil⟩

instance : EmptyCollection (OrderedMap κ ν) := ⟨empty⟩

instance : Inhabited (OrderedMap κ ν) := ⟨empty⟩

/-- The keys, in order. -/
def keys (m : OrderedMap κ ν) : List κ := m.entries.map Prod.fst

/-- The values, in the order of their keys. -/
def values (m : OrderedMap κ ν) : List ν := m.entries.map Prod.snd

/-- The number of entries. -/
def size (m : OrderedMap κ ν) : Nat := m.entries.length

/-- Whether there is no entry. -/
def isEmpty (m : OrderedMap κ ν) : Bool := m.entries.isEmpty

variable [DecidableEq κ]

/-- The value under `key`. -/
def get? (m : OrderedMap κ ν) (key : κ) : Option ν := m.entries.lookup key

/-- Whether there is an entry under `key`. -/
def contains (m : OrderedMap κ ν) (key : κ) : Bool := (m.get? key).isSome

/-- The place of `key` in the order of the keys. -/
def position? (m : OrderedMap κ ν) (key : κ) : Option Nat := m.keys.idxOf? key

/-- Puts `value` under `key`.  A known key keeps its place. -/
def insert (m : OrderedMap κ ν) (key : κ) (value : ν) : OrderedMap κ ν :=
  ⟨upsert key value m.entries, nodup_keys_upsert m.nodup⟩

/-- Removes the entry under `key`, if there is one. -/
def erase (m : OrderedMap κ ν) (key : κ) : OrderedMap κ ν :=
  ⟨dropKey key m.entries, nodup_keys_dropKey m.nodup⟩

/-- Inserts a value.  The answer is the value that it replaces. -/
def set (m : OrderedMap κ ν) (key : κ) (value : ν) : Option ν × OrderedMap κ ν :=
  (m.get? key, m.insert key value)

/-- Erases a key.  The answer is the value that was under it. -/
def remove (m : OrderedMap κ ν) (key : κ) : Option ν × OrderedMap κ ν :=
  (m.get? key, m.erase key)

/-- The map of a list of pairs, inserted one after the other.  A repeated key
keeps its first place and its last value. -/
def ofList (pairs : List (κ × ν)) : OrderedMap κ ν :=
  pairs.foldl (fun m pair => m.insert pair.1 pair.2) ∅

end OrderedMap

end XmlTree
