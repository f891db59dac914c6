import XmlTree.Node

/-!
# Reading and writing qualified names

A written name that is read gives the name back as it was written (`toString_ofString`).  A
name that is written and read is another name when the reading stops too early, at a colon
that the name did not mean as its separator: one in the prefix, or one in the local part of a
name without a prefix.  A name without such a colon is *clear*.  What is read is always clear
(`clear_ofString`), and a clear name is read as it was (`ofString_toString`).

An unclear name comes back with another prefix and with another local part, too.  So either
part alone tells whether the name is clear (`nsPrefix_ofString_toString_iff`,
`localName_ofString_toString_iff`).

An element cuts its prefix off its written name without reading the rest.  It gets the prefix
that reading the whole name gives (`nsPrefix_element`).
-/

namespace XmlTree.QName

variable {name : QName} {text : String}

/-- No colon comes before the one that ends the prefix, and none stands for it where there is
no prefix. -/
def Clear (name : QName) : Prop :=
  match name.nsPrefix with
  | some p => ':' ∉ p.toList
  | none => ':' ∉ name.localName.toList

instance : (name : QName) → Decidable name.Clear
  | ⟨some p, _⟩ => inferInstanceAs (Decidable (':' ∉ p.toList))
  | ⟨none, localName⟩ => inferInstanceAs (Decidable (':' ∉ localName.toList))

/-! ## Reading -/

theorem ofString_of_not_mem (plain : ':' ∉ text.toList) : ofString text = ⟨none, text⟩ := by
  rw [ofString, cutAt_eq_none_iff.2 plain]

/-- A text is read as a prefix without a colon and what follows it, or has no colon at all. -/
theorem ofString_cases (text : String) :
    (∃ p rest, ':' ∉ p.toList ∧ text = p ++ ":" ++ rest ∧ ofString text = ⟨some p, rest⟩) ∨
      ':' ∉ text.toList ∧ ofString text = ⟨none, text⟩ := by
  cases cut : cutAt ':' text.toList with
  | none => exact .inr ⟨cutAt_eq_none_iff.1 cut, by rw [ofString, cut]⟩
  | some parts =>
    obtain ⟨before, after⟩ := parts
    obtain ⟨same, plain⟩ := cutAt_eq_some_iff.1 cut
    refine .inl ⟨String.ofList before, String.ofList after, ?_, ?_, by rw [ofString, cut]⟩
    · rwa [String.toList_ofList]
    · apply String.toList_inj.1
      simpa using same

theorem isSome_nsPrefix_ofString_iff :
    (ofString text).nsPrefix.isSome = true ↔ ':' ∈ text.toList := by
  rcases ofString_cases text with ⟨p, rest, _, rfl, read⟩ | ⟨plain, read⟩
  · simp [read]
  · simp [read, plain]

/-- What is read is written as it was. -/
theorem toString_ofString (text : String) : (ofString text).toString = text := by
  rcases ofString_cases text with ⟨p, rest, _, same, read⟩ | ⟨_, read⟩
  · rw [read, same, toString]
  · rw [read, toString]

theorem clear_ofString (text : String) : (ofString text).Clear := by
  rcases ofString_cases text with ⟨p, rest, plain, _, read⟩ | ⟨plain, read⟩
  · rw [read]
    exact plain
  · rw [read]
    exact plain

/-! ## Writing -/

/-- A clear name is read as it was. -/
theorem ofString_toString (clear : name.Clear) : ofString name.toString = name := by
  obtain ⟨nsPrefix, localName⟩ := name
  cases nsPrefix with
  | none => exact ofString_of_not_mem clear
  | some p =>
    have cut : cutAt ':' (p ++ ":" ++ localName).toList = some (p.toList, localName.toList) :=
      cutAt_eq_some_iff.2 ⟨by simp, clear⟩
    rw [toString, ofString, cut]
    simp

/-- A prefix makes a written name longer than its local part. -/
theorem toString_ne_localName (p localName : String) :
    (QName.mk (some p) localName).toString ≠ localName := by
  intro same
  have lengths : (p ++ ":" ++ localName).length = localName.length := congrArg String.length same
  rw [String.length_append, String.length_append] at lengths
  have separator : ":".length = 1 := rfl
  omega

/-- Names with one local part are written differently if their prefixes differ. -/
theorem nsPrefix_eq_of_toString_eq {p p' : Option String} {localName : String}
    (same : (QName.mk p localName).toString = (QName.mk p' localName).toString) : p = p' := by
  cases p with
  | none =>
    cases p' with
    | none => rfl
    | some q' => exact absurd same.symm (toString_ne_localName q' localName)
  | some q =>
    cases p' with
    | none => exact absurd same (toString_ne_localName q localName)
    | some q' =>
      have lists := congrArg String.toList same
      simp only [toString, String.toList_append, List.append_cancel_right_eq] at lists
      rw [String.toList_inj.1 lists]

theorem nsPrefix_ofString_toString_iff :
    (ofString name.toString).nsPrefix = name.nsPrefix ↔ name.Clear := by
  constructor
  · intro same
    have read := clear_ofString name.toString
    obtain ⟨nsPrefix, localName⟩ := name
    cases nsPrefix with
    | some p =>
      rw [Clear, same] at read
      exact read
    | none =>
      -- Without a prefix the written name is the local part, which has no colon then.
      rcases ofString_cases (QName.mk none localName).toString with
        ⟨p, rest, _, _, split⟩ | ⟨plain, _⟩
      · rw [split] at same
        cases same
      · exact plain
  · intro clear
    rw [ofString_toString clear]

theorem localName_ofString_toString_iff :
    (ofString name.toString).localName = name.localName ↔ name.Clear := by
  constructor
  · intro same
    have read : ofString name.toString = ⟨(ofString name.toString).nsPrefix, name.localName⟩ := by
      rw [← same]
    have written := (congrArg toString read).symm.trans (toString_ofString name.toString)
    exact nsPrefix_ofString_toString_iff.1 (nsPrefix_eq_of_toString_eq written)
  · intro clear
    rw [ofString_toString clear]

-- The two ways to be unclear.
example : ¬ (QName.mk (some "a:b") "c").Clear ∧ ¬ (QName.mk none "b:c").Clear := by decide +kernel

/-! ## Both ways round -/

/-- A name is clear by what it has no colon in. -/
theorem clear_mk_iff {nsPrefix : Option String} {localName : String} :
    (QName.mk nsPrefix localName).Clear ↔
      (∃ p, nsPrefix = some p ∧ ':' ∉ p.toList) ∨ nsPrefix = none ∧ ':' ∉ localName.toList := by
  cases nsPrefix with
  | some p => simp [Clear]
  | none => simp [Clear]

/-- An element has the prefix that is read off its name. -/
theorem nsPrefix_element (data : ElementData) :
    data.nsPrefix = (ofString data.qualifiedName).nsPrefix := by
  rw [ElementData.nsPrefix, ofString]
  cases cutAt ':' data.qualifiedName.toList <;> rfl

/-- The prefix that is read is the text before the first colon. -/
theorem nsPrefix_ofString_eq_some_iff {p : String} :
    (ofString text).nsPrefix = some p ↔ ':' ∉ p.toList ∧ ∃ rest, text = p ++ ":" ++ rest := by
  constructor
  · intro has
    rcases ofString_cases text with ⟨q, rest, plain, same, read⟩ | ⟨_, read⟩
    · rw [read] at has
      obtain rfl := Option.some.inj has
      exact ⟨plain, rest, same⟩
    · rw [read] at has
      cases has
  · rintro ⟨plain, rest, rfl⟩
    have clear : (QName.mk (some p) rest).Clear := plain
    exact congrArg nsPrefix (ofString_toString clear)

/-- What reading and writing names do to each other. -/
structure RoundTrips : Prop where
  /-- A text that is read is written as it was. -/
  written : ∀ text, (ofString text).toString = text
  /-- The prefix that is read has no colon. -/
  plain : ∀ text p, (ofString text).nsPrefix = some p → ':' ∉ p.toList
  /-- A name that is written is read as it was exactly if its prefix has no colon, or it has no
  prefix and its local part has no colon. -/
  read : ∀ nsPrefix localName,
    ofString (QName.mk nsPrefix localName).toString = ⟨nsPrefix, localName⟩ ↔
      (∃ p, nsPrefix = some p ∧ ':' ∉ p.toList) ∨ nsPrefix = none ∧ ':' ∉ localName.toList
  /-- The prefix of an element is the one that is read off its name. -/
  element : ∀ data : ElementData, data.nsPrefix = (ofString data.qualifiedName).nsPrefix ∧
    ∀ p, data.nsPrefix = some p ↔ ':' ∉ p.toList ∧ ∃ rest, data.qualifiedName = p ++ ":" ++ rest

/-- Reading undoes writing for the clear names, and writing undoes reading for all texts. -/
theorem roundTrips : RoundTrips where
  written := toString_ofString
  plain text p has := (nsPrefix_ofString_eq_some_iff.1 has).1
  read nsPrefix localName := by
    rw [← clear_mk_iff]
    constructor
    · intro same
      exact nsPrefix_ofString_toString_iff.1 (congrArg QName.nsPrefix same)
    · exact ofString_toString
  element data := by
    rw [nsPrefix_element]
    exact ⟨rfl, fun p => nsPrefix_ofString_eq_some_iff⟩

end XmlTree.QName
