import Mathlib
import XmlTree.Url.Resolver

/-!
# Schemes of addresses

An address has a scheme exactly when it is a text in the form of a scheme, a colon and
anything after it (`scheme?_eq_some_iff`).  The form is that of a grammar (`SchemeText`), which
knows no colon.  So the text before the first colon is the only one that can be the scheme, and
it is refused only if the grammar does not make it (`scheme?_eq_none_iff`).

A URL that has been read always has a scheme of that form (`Reads.isScheme`).  A reference with
a scheme of its own brings it along, in lower case.  Any other reference takes the scheme of
its base, whatever else it takes from there, and the rules for files know no scheme but
`file`.  So a URL that is written starts with its scheme, and as an address it is absolute.
-/

namespace XmlTree.Url

variable {text rest scheme : List Char} {url base : Url}

/-! ## The form of a scheme -/

theorem isSchemeChar_of_isAlpha {c : Char} (alpha : c.isAlpha = true) : isSchemeChar c = true := by
  simp [isSchemeChar, Char.isAlphanum, alpha]

theorem isScheme_cons_iff {c : Char} :
    isScheme (c :: rest) = true ↔ c.isAlpha = true ∧ ∀ d ∈ rest, isSchemeChar d = true := by
  rw [isScheme, Bool.and_eq_true, List.all_eq_true]

/-- A scheme ends before the first colon. -/
theorem colon_not_mem_of_isScheme (formed : isScheme text = true) : ':' ∉ text := by
  cases text with
  | nil => cases formed
  | cons c rest =>
    obtain ⟨alpha, chars⟩ := isScheme_cons_iff.1 formed
    intro colon
    have counted : isSchemeChar ':' = true := by
      rcases List.mem_cons.1 colon with rfl | member
      · exact isSchemeChar_of_isAlpha alpha
      · exact chars _ member
    exact absurd counted (by decide)

/-- An address has a scheme when it starts with one, and that is the scheme it has. -/
theorem scheme?_eq_some_iff {uri s : String} :
    scheme? uri = some s ↔ isScheme s.toList = true ∧ ∃ rest, uri = s ++ ":" ++ rest := by
  constructor
  · intro found
    rw [scheme?] at found
    split at found
    next candidate rest cut =>
      split at found
      next formed =>
        cases found
        obtain ⟨same, _⟩ := cutAt_eq_some_iff.1 cut
        refine ⟨by rwa [String.toList_ofList], String.ofList rest, ?_⟩
        apply String.toList_inj.1
        simpa using same
      next => cases found
    next => cases found
  · rintro ⟨formed, rest, rfl⟩
    have cut : cutAt ':' (s ++ ":" ++ rest).toList = some (s.toList, rest.toList) :=
      cutAt_eq_some_iff.2 ⟨by simp, colon_not_mem_of_isScheme formed⟩
    rw [scheme?, cut]
    simp [formed]

theorem isAbsolute_iff {uri : String} : isAbsolute uri = true ↔ ∃ s, scheme? uri = some s :=
  Option.isSome_iff_exists

/-! ## The grammar of schemes -/

/-- A letter of the Latin alphabet. -/
def Letter (c : Char) : Prop := 'A' ≤ c ∧ c ≤ 'Z' ∨ 'a' ≤ c ∧ c ≤ 'z'

/-- A decimal digit. -/
def Digit (c : Char) : Prop := '0' ≤ c ∧ c ≤ '9'

/-- A scheme starts with a letter and goes on with letters, digits, `+`, `-` and `.`. -/
inductive SchemeText : List Char → Prop
  /-- One letter. -/
  | letter {c : Char} (letter : Letter c) : SchemeText [c]
  /-- One character more. -/
  | more {text : List Char} {c : Char} (start : SchemeText text)
      (next : Letter c ∨ Digit c ∨ c = '+' ∨ c = '-' ∨ c = '.') : SchemeText (text ++ [c])

theorem isAlpha_iff {c : Char} : c.isAlpha = true ↔ Letter c := by
  simp only [Char.isAlpha, Char.isUpper, Char.isLower, Bool.or_eq_true, Bool.and_eq_true,
    decide_eq_true_eq, Letter, Char.le_def, ge_iff_le]

theorem isDigit_iff {c : Char} : c.isDigit = true ↔ Digit c := by
  simp only [Char.isDigit, Bool.and_eq_true, decide_eq_true_eq, Digit, Char.le_def, ge_iff_le]

theorem isSchemeChar_iff {c : Char} :
    isSchemeChar c = true ↔ Letter c ∨ Digit c ∨ c = '+' ∨ c = '-' ∨ c = '.' := by
  simp only [isSchemeChar, Char.isAlphanum, Bool.or_eq_true, beq_iff_eq, isAlpha_iff, isDigit_iff,
    or_assoc]

theorem SchemeText.append (start : SchemeText text) {more : List Char}
    (chars : ∀ c ∈ more, isSchemeChar c = true) : SchemeText (text ++ more) := by
  induction more generalizing text with
  | nil => rwa [List.append_nil]
  | cons c more ih =>
    rw [List.append_cons]
    exact ih (.more start (isSchemeChar_iff.1 (chars c List.mem_cons_self)))
      fun d member => chars d (.tail _ member)

/-- What has the form of a scheme is what the grammar makes. -/
theorem isScheme_iff_schemeText : isScheme text = true ↔ SchemeText text := by
  constructor
  · intro formed
    cases text with
    | nil => cases formed
    | cons c more =>
      obtain ⟨alpha, chars⟩ := isScheme_cons_iff.1 formed
      exact (SchemeText.letter (isAlpha_iff.1 alpha)).append chars
  · intro made
    induction made with
    | letter letter => exact isScheme_cons_iff.2 ⟨isAlpha_iff.2 letter, nofun⟩
    | @more text c start next ih =>
      cases text with
      | nil => cases ih
      | cons first text =>
        obtain ⟨alpha, chars⟩ := isScheme_cons_iff.1 ih
        refine isScheme_cons_iff.2 ⟨alpha, fun d member => ?_⟩
        rcases List.mem_append.1 member with earlier | last
        · exact chars d earlier
        · rw [List.mem_singleton.1 last]
          exact isSchemeChar_iff.2 next

theorem lt_of_isSchemeChar {c : Char} (counted : isSchemeChar c = true) : c.toNat < 128 := by
  have below : ∀ {d : Char}, d.toNat < 128 → c ≤ d → c.toNat < 128 := by
    intro d small le
    exact Nat.lt_of_le_of_lt le small
  rcases isSchemeChar_iff.1 counted with (⟨_, upper⟩ | ⟨_, lower⟩) | ⟨_, digit⟩ | rfl | rfl | rfl
  · exact below (by decide) upper
  · exact below (by decide) lower
  · exact below (by decide) digit
  all_goals decide

theorem SchemeText.lt_of_mem (made : SchemeText text) {c : Char} (member : c ∈ text) :
    c.toNat < 128 := by
  have formed := isScheme_iff_schemeText.2 made
  cases text with
  | nil => cases member
  | cons first more =>
    obtain ⟨alpha, chars⟩ := isScheme_cons_iff.1 formed
    rcases List.mem_cons.1 member with rfl | later
    · exact lt_of_isSchemeChar (isSchemeChar_of_isAlpha alpha)
    · exact lt_of_isSchemeChar (chars c later)

/-- An address has no scheme when it has no colon, or no scheme before its first one. -/
theorem scheme?_eq_none_iff {uri : String} : scheme? uri = none ↔ ':' ∉ uri.toList ∨
    ∃ before rest, uri = before ++ ":" ++ rest ∧ ':' ∉ before.toList ∧
      isScheme before.toList = false := by
  rw [scheme?]
  cases cut : cutAt ':' uri.toList with
  | none => exact iff_of_true rfl (.inl (cutAt_eq_none_iff.1 cut))
  | some parts =>
    obtain ⟨candidate, rest⟩ := parts
    obtain ⟨same, plain⟩ := cutAt_eq_some_iff.1 cut
    have colon : ':' ∈ uri.toList := same ▸ List.mem_append_right _ List.mem_cons_self
    rw [or_iff_right (not_not_intro colon)]
    show (if isScheme candidate = true then some (String.ofList candidate) else none) = none ↔ _
    constructor
    · intro refused
      refine ⟨String.ofList candidate, String.ofList rest, ?_, ?_, ?_⟩
      · apply String.toList_inj.1
        simpa using same
      · rwa [String.toList_ofList]
      · rw [String.toList_ofList]
        exact Bool.eq_false_iff.2 fun formed => by rw [if_pos formed] at refused; cases refused
    · rintro ⟨before, after, rfl, first, refused⟩
      -- The text before the first colon is the one that was cut off.
      have again : cutAt ':' (before ++ ":" ++ after).toList = some (before.toList, after.toList) :=
        cutAt_eq_some_iff.2 ⟨by simp, first⟩
      cases cut.symm.trans again
      rw [refused]
      rfl

/-- Which addresses have a scheme, and which one. -/
structure SchemeLaws (uri : String) : Prop where
  /-- The scheme is a text that the grammar makes, with a colon after it. -/
  found : ∀ s, scheme? uri = some s ↔ SchemeText s.toList ∧ ∃ rest, uri = s ++ ":" ++ rest
  /-- No two such texts are there to choose from. -/
  unique : ∀ s s' rest rest', SchemeText s.toList → SchemeText s'.toList →
    uri = s ++ ":" ++ rest → uri = s' ++ ":" ++ rest' → s = s'
  /-- There is none without a colon, and none if the grammar does not make what stands before the
  first colon. -/
  missing : scheme? uri = none ↔ ':' ∉ uri.toList ∨ ∃ before rest,
    uri = before ++ ":" ++ rest ∧ ':' ∉ before.toList ∧ ¬ SchemeText before.toList
  /-- It is not empty, and all of it is ASCII. -/
  plain : ∀ s, scheme? uri = some s → s ≠ "" ∧ ∀ c ∈ s.toList, c.toNat < 128
  /-- The address is absolute if it has one. -/
  absolute : Resolver.web.isAbsolute uri = true ↔
    ∃ s rest, SchemeText s.toList ∧ uri = s ++ ":" ++ rest

/-- Every address has the scheme that the grammar gives it. -/
theorem schemeLaws (uri : String) : SchemeLaws uri := by
  have found : ∀ s, scheme? uri = some s ↔
      SchemeText s.toList ∧ ∃ rest, uri = s ++ ":" ++ rest := by
    intro s
    rw [scheme?_eq_some_iff, isScheme_iff_schemeText]
  refine ⟨found, ?unique, ?missing, ?plain, ?absolute⟩
  case unique =>
    intro s s' rest rest' made made' same same'
    have first := (found s).2 ⟨made, rest, same⟩
    have second := (found s').2 ⟨made', rest', same'⟩
    exact Option.some.inj (first.symm.trans second)
  case missing =>
    rw [scheme?_eq_none_iff]
    simp only [← isScheme_iff_schemeText, Bool.not_eq_true]
  case plain =>
    intro s has
    obtain ⟨made, _⟩ := (found s).1 has
    refine ⟨?_, fun c => made.lt_of_mem⟩
    rintro rfl
    cases isScheme_iff_schemeText.2 made
  case absolute =>
    show isAbsolute uri = true ↔ _
    rw [isAbsolute_iff]
    simp only [found, exists_and_left]

-- The first colon decides, and letters and digits are ASCII ones.
example : scheme? "svn+ssh:a:b" = some "svn+ssh" ∧ scheme? ":x" = none ∧ scheme? "1a:x" = none ∧
    scheme? "a/b:c" = none ∧ scheme? "é:x" = none ∧ scheme? "x٣:y" = none := by
  decide +kernel

/-! ## Lower case -/

theorem isSchemeChar_toLower {c : Char} (counted : isSchemeChar c = true) :
    isSchemeChar c.toLower = true := by
  by_cases upper : c.isUpper = true
  · have alpha : c.isAlpha = true := by rw [Char.isAlpha, upper, Bool.true_or]
    exact isSchemeChar_of_isAlpha (by rwa [Char.isAlpha_toLower_eq_isAlpha])
  · rwa [Char.toLower_eq_of_not_isUpper upper]

theorem isScheme_map_toLower (formed : isScheme text = true) :
    isScheme (text.map Char.toLower) = true := by
  cases text with
  | nil => cases formed
  | cons c rest =>
    obtain ⟨alpha, chars⟩ := isScheme_cons_iff.1 formed
    refine isScheme_cons_iff.2 ⟨by rwa [Char.isAlpha_toLower_eq_isAlpha], fun d member => ?_⟩
    obtain ⟨e, there, rfl⟩ := List.mem_map.1 member
    exact isSchemeChar_toLower (chars e there)

theorem isScheme_of_splitScheme? (split : splitScheme? text = some (scheme, rest)) :
    isScheme scheme = true := by
  obtain ⟨⟨candidate, _⟩, _, split⟩ := Option.bind_eq_some_iff.1 split
  obtain ⟨_, guarded, made⟩ := Option.bind_eq_some_iff.1 split
  cases made
  cases formed : isScheme (dropMarks candidate) with
  | true => exact isScheme_map_toLower formed
  | false =>
    rw [formed] at guarded
    cases guarded

/-! ## What resolution makes of the scheme -/

@[simp]
theorem scheme_withSuffix (url : Url) (text : List Char) :
    (url.withSuffix text).scheme = url.scheme := by
  rw [withSuffix]
  split <;> rfl

@[simp]
theorem scheme_withPath (url : Url) (start text : List Char) :
    (url.withPath start text).scheme = url.scheme := by
  rw [withPath, scheme_withSuffix]

@[simp]
theorem scheme_withoutFragment (url : Url) : url.withoutFragment.scheme = url.scheme := rfl

theorem scheme_readHierarchy? (read : readHierarchy? scheme text = some url) :
    url.scheme = scheme := by
  obtain ⟨⟨authority, rest⟩, _, made⟩ := Option.bind_eq_some_iff.1 read
  rw [← Option.some.inj made, scheme_withSuffix]

theorem scheme_resolveRelative? (read : resolveRelative? base text = some url) :
    url.scheme = base.scheme := by
  unfold resolveRelative? at read
  split at read
  next => cases read; exact scheme_withoutFragment base
  next => cases read; exact scheme_withSuffix base _
  next => cases read; rfl
  next =>
    split at read
    next slash =>
      dsimp only at read
      split at read
      next single => cases read; exact scheme_withPath base _ _
      next double =>
        split at read
        · exact scheme_readHierarchy? read
        · exact scheme_readHierarchy? read
    next name => cases read; exact scheme_withPath base _ _

/-- The scheme of files. -/
theorem scheme_readFileHierarchy? (read : readFileHierarchy? text = some url) :
    url.scheme = emptyFile.scheme := by
  obtain ⟨⟨host, rest⟩, _, made⟩ := Option.bind_eq_some_iff.1 read
  dsimp only at made
  split at made
  · rw [← Option.some.inj made, scheme_withPath]
  · rw [← Option.some.inj made, scheme_withSuffix]

theorem scheme_resolveFileRoot (base? : Option Url) (text : List Char) :
    (resolveFileRoot base? text).scheme = emptyFile.scheme := by
  unfold resolveFileRoot
  split
  next => exact scheme_withPath _ _ _
  next =>
    dsimp only
    split
    next => exact scheme_withPath _ _ _
    next =>
      split
      · exact scheme_withPath _ _ _
      · exact scheme_withPath _ _ _

/-- What is read as a file has the scheme of files or that of the base. -/
theorem scheme_resolveFileRelative (base? : Option Url) (text : List Char) :
    (resolveFileRelative base? text).scheme = emptyFile.scheme ∨
      ∃ base ∈ base?, (resolveFileRelative base? text).scheme = base.scheme := by
  unfold resolveFileRelative
  split
  next => exact .inl (scheme_withPath _ _ _)
  next base => exact .inr ⟨base, rfl, scheme_withoutFragment base⟩
  next base _ => exact .inr ⟨base, rfl, scheme_withSuffix base _⟩
  next base _ => exact .inr ⟨base, rfl, rfl⟩
  next base _ _ _ =>
    split
    · exact .inl (scheme_withPath _ _ _)
    · exact .inr ⟨base, rfl, scheme_withPath base _ _⟩

theorem scheme_resolveFile? {base? : Option Url} (read : resolveFile? base? text = some url) :
    url.scheme = emptyFile.scheme ∨ ∃ base ∈ base?, url.scheme = base.scheme := by
  unfold resolveFile? at read
  dsimp only at read
  split at read
  next => cases read; exact scheme_resolveFileRelative base? []
  next c rest =>
    split at read
    next =>
      split at read
      · exact .inl (scheme_readFileHierarchy? read)
      · cases read; exact .inl (scheme_resolveFileRoot base? _)
    next => cases read; exact scheme_resolveFileRelative base? _

theorem scheme_readOther? (read : readOther? scheme text = some url) : url.scheme = scheme := by
  unfold readOther? at read
  dsimp only at read
  split at read
  next => exact scheme_readHierarchy? read
  next => cases read; exact scheme_withPath _ _ _
  next => cases read; exact scheme_withSuffix _ _

theorem scheme_resolveWeb? {base? : Option Url}
    (read : resolveWeb? base? scheme text = some url) :
    url.scheme = scheme ∨ ∃ base ∈ base?, url.scheme = base.scheme := by
  unfold resolveWeb? at read
  dsimp only at read
  split at read
  next base =>
    split at read
    next => exact .inr ⟨base, rfl, scheme_resolveRelative? read⟩
    next => exact .inl (scheme_readHierarchy? read)
  next => exact .inl (scheme_readHierarchy? read)

/-! ## URLs that have been read -/

theorem isScheme_resolveScheme? {base? : Option Url} (formed : isScheme scheme = true)
    (bases : ∀ base ∈ base?, isScheme base.scheme = true)
    (read : resolveScheme? base? scheme text = some url) : isScheme url.scheme = true := by
  have kept : ∀ base ∈ base?.filter (·.scheme = scheme), isScheme base.scheme = true :=
    fun base member => bases base (Option.filter_eq_some_iff.1 member).1
  unfold resolveScheme? at read
  dsimp only at read
  split at read
  next =>
    rcases scheme_resolveFile? read with file | ⟨base, member, same⟩
    · rw [file]
      rfl
    · rw [same]
      exact kept base member
  next =>
    rcases scheme_resolveWeb? read with own | ⟨base, member, same⟩
    · rwa [own]
    · rw [same]
      exact kept base member
  next => rwa [scheme_readOther? read]

/-- What is resolved has a scheme of the right form, if the base has one. -/
theorem isScheme_resolve? {base? : Option Url} (bases : ∀ base ∈ base?, isScheme base.scheme = true)
    (read : resolve? base? text = some url) : isScheme url.scheme = true := by
  unfold resolve? at read
  dsimp only at read
  split at read
  next split => exact isScheme_resolveScheme? (isScheme_of_splitScheme? split) bases read
  next => cases read
  next base _ =>
    have formed := bases base rfl
    split at read
    next => cases read; exact formed
    next =>
      split at read
      next => cases read
      next =>
        split at read
        next =>
          rcases scheme_resolveFile? read with file | ⟨_, ⟨⟩, same⟩
          · rw [file]
            rfl
          · rwa [same]
        next => rwa [scheme_resolveRelative? read]

end XmlTree.Url
