/-!
# Cutting text at a separator

`cutAt sep` splits a text at the first occurrence of a character.  Qualified
names are cut at a colon, and so is the scheme of a URI.

`cutAt_eq_some_iff` says what a cut is: the text is the two parts with the
separator between them, and the first part does not contain the separator.
`cutAt_eq_none_iff` says that only a text without the separator has no cut.
-/

namespace XmlTree

/-- The text before the first `sep` and the text after it.  There is no cut
when `sep` does not occur. -/
def cutAt (sep : Char) : List Char → Option (List Char × List Char)
  | [] => none
  | c :: rest =>
      if c = sep then some ([], rest)
      else (cutAt sep rest).map fun cut => (c :: cut.1, cut.2)

/-- A cut puts the text back together and stops at the first separator. -/
theorem cutAt_eq_some_iff {sep : Char} {text before after : List Char} :
    cutAt sep text = some (before, after) ↔ text = before ++ sep :: after ∧ sep ∉ before := by
  induction text generalizing before with
  | nil => simp [cutAt]
  | cons c rest ih =>
    by_cases h : c = sep
    · cases before with
      | nil => simp [cutAt, h, eq_comm]
      | cons b before => simp +contextual [cutAt, h, eq_comm]
    · cases before with
      | nil => simp [cutAt, h]
      | cons b before =>
        simp only [cutAt, h, if_false, Option.map_eq_some_iff, Prod.mk.injEq, List.cons.injEq,
          Prod.exists, List.cons_append, List.mem_cons, not_or]
        constructor
        · rintro ⟨x, y, hxy, ⟨rfl, rfl⟩, rfl⟩
          obtain ⟨rfl, hm⟩ := ih.1 hxy
          exact ⟨⟨rfl, rfl⟩, Ne.symm h, hm⟩
        · rintro ⟨⟨rfl, rfl⟩, _, hm⟩
          exact ⟨before, after, ih.2 ⟨rfl, hm⟩, ⟨rfl, rfl⟩, rfl⟩

/-- A text has no cut exactly when it lacks the separator. -/
theorem cutAt_eq_none_iff {sep : Char} {text : List Char} :
    cutAt sep text = none ↔ sep ∉ text := by
  induction text with
  | nil => simp [cutAt]
  | cons c rest ih =>
    by_cases h : c = sep
    · simp [cutAt, h]
    · simp [cutAt, h, ih, Ne.symm h]

end XmlTree
