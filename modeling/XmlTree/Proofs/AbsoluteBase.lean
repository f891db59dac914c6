import XmlTree.Proofs.BaseUri
import XmlTree.Proofs.Url.Scheme

/-!
# Base addresses are absolute

A base address starts as something that counts as absolute: the value of an `xml:base` or the
address of a document.  Then references are resolved against it, one after the other.  So it
is absolute in the end if resolution leads to nothing that is not, and such a resolver is
*closed*.

Under the rules for URLs two notions meet.  What is absolute is a matter of the text up to the
first colon, but what is resolved is a URL that a library has read and writes again.  All that
matters of the library is that it writes a scheme and a colon first
(`UrlLibrary.WritesSchemes`).  The URLs of this project, which have domains in ASCII only, are
one such library (`UrlLibrary.writesSchemes_web`), so the law for libraries covers them
(`Arena.AbsoluteBaseLaws.web`).
-/

namespace XmlTree

/-! ## Closed resolvers -/

/-- What references resolve to is absolute by the resolver's own standard. -/
def Resolver.Closed (r : Resolver) : Prop :=
  ∀ reference base u, r.absolutize reference base = some u → r.isAbsolute u = true

variable {a : Arena} {id : NodeId} {r : Resolver} {base u : String}
variable {references pending : List String}

/-- Every step of a resolution is absolute, from the first to the last. -/
theorem Resolver.Closed.resolveAll (closed : r.Closed) (absolute : r.isAbsolute base = true)
    (resolved : r.resolveAll base references = some u) : r.isAbsolute u = true := by
  induction references generalizing base with
  | nil =>
    cases resolved
    exact absolute
  | cons reference rest ih =>
    rw [Resolver.resolveAll, List.foldlM_cons] at resolved
    obtain ⟨next, step, resolved⟩ := Option.bind_eq_some_iff.1 resolved
    exact ih (closed reference base next step) resolved

namespace Arena

/-- What the walk comes to is absolute, whatever it has met below. -/
theorem absolute_of_baseAlong (closed : r.Closed) {lineage : Lineage}
    (walked : a.baseAlong r pending lineage = .ok (some u)) : r.isAbsolute u = true := by
  induction lineage generalizing pending with
  | missing id => cases walked
  | top id node =>
    obtain ⟨base, root, resolved⟩ := Option.bind_eq_some_iff.1 (Except.ok.inj walked)
    exact closed.resolveAll (Option.filter_eq_some_iff.1 root).2 resolved
  | step id node above ih =>
    obtain ⟨stated, _, walked⟩ := bind_eq_ok_iff.1 walked
    cases stated with
    | none => exact ih walked
    | some value =>
      dsimp only at walked
      split at walked
      next absolute => exact closed.resolveAll absolute (Except.ok.inj walked)
      next relative => exact ih walked

end Arena

/-! ## Libraries for URLs -/

/-- A library for URLs, by what is used of it. -/
structure UrlLibrary where
  /-- What texts are read into. -/
  Parsed : Type
  /-- Reads a text. -/
  parse? : String → Option Parsed
  /-- Resolves a reference. -/
  join? : Parsed → String → Option Parsed
  /-- Writes what has been read. -/
  render : Parsed → String

namespace UrlLibrary

/-- Resolution with a library.  What is absolute does not depend on it. -/
def resolver (library : UrlLibrary) : Resolver where
  isAbsolute := Url.isAbsolute
  absolutize reference base := do
    return library.render (← library.join? (← library.parse? base) reference)

/-- What a library gives out: what it has read, and what it has resolved against that. -/
inductive Reads (library : UrlLibrary) : library.Parsed → Prop
  /-- A text has been read. -/
  | parsed {text : String} {url : library.Parsed} (read : library.parse? text = some url) :
      Reads library url
  /-- A reference has been resolved. -/
  | joined {reference : String} {base url : library.Parsed} (against : Reads library base)
      (read : library.join? base reference = some url) : Reads library url

/-- What the library gives out is written with a scheme and a colon first. -/
def WritesSchemes (library : UrlLibrary) : Prop :=
  ∀ url, library.Reads url → ∃ scheme rest, Url.isScheme scheme.toList = true ∧
    library.render url = scheme ++ ":" ++ rest

theorem closed_resolver {library : UrlLibrary} (writes : library.WritesSchemes) :
    library.resolver.Closed := by
  intro reference base u resolved
  obtain ⟨start, read, resolved⟩ := Option.bind_eq_some_iff.1 resolved
  obtain ⟨url, joined, written⟩ := Option.bind_eq_some_iff.1 resolved
  cases written
  obtain ⟨scheme, rest, formed, same⟩ := writes url (.joined (.parsed read) joined)
  exact Url.isAbsolute_iff.2 ⟨scheme, Url.scheme?_eq_some_iff.2 ⟨formed, rest, same⟩⟩

/-- The library of this project.  It reads domains in ASCII only. -/
def web : UrlLibrary where
  Parsed := Url
  parse? := Url.parse?
  join? := Url.join?
  render url := String.ofList url.render

/-- Resolving with it is what `Resolver.web` does. -/
theorem resolver_web : web.resolver = Resolver.web := rfl

theorem isScheme_of_reads_web {url : web.Parsed} (reads : web.Reads url) :
    Url.isScheme (Url.scheme url) = true := by
  induction reads with
  | parsed read =>
    refine Url.isScheme_resolve? ?_ read
    exact nofun
  | joined _ read ih =>
    refine Url.isScheme_resolve? ?_ read
    rintro _ ⟨⟩
    exact ih

theorem writesSchemes_web : web.WritesSchemes := by
  intro url reads
  refine ⟨String.ofList url.scheme, String.ofList (url.render.drop (url.scheme.length + 1)), ?_, ?_⟩
  · rw [String.toList_ofList]
    exact isScheme_of_reads_web reads
  · apply String.toList_inj.1
    simp [web, Url.render]

end UrlLibrary

/-! ## The laws of absolute bases -/

namespace Arena

theorem exists_scheme?_of_baseUriWith {library : UrlLibrary} (writes : library.WritesSchemes)
    (found : a.baseUriWith library.resolver id = .ok (some u)) : ∃ s, Url.scheme? u = some s :=
  Url.isAbsolute_iff.1 (absolute_of_baseAlong (UrlLibrary.closed_resolver writes) found)

/-- What a base address in an arena looks like, if there is one. -/
structure AbsoluteBaseLaws (a : Arena) : Prop where
  /-- With a closed resolver it is absolute. -/
  closed : ∀ r : Resolver, r.Closed → ∀ id u, a.baseUriWith r id = .ok (some u) →
    r.isAbsolute u = true
  /-- With a library that writes schemes it has a scheme. -/
  library : ∀ library : UrlLibrary, library.WritesSchemes → ∀ id u,
    a.baseUriWith library.resolver id = .ok (some u) → ∃ s, Url.scheme? u = some s

/-- With the library of this project, too, it has a scheme. -/
theorem AbsoluteBaseLaws.web (laws : a.AbsoluteBaseLaws) (found : a.baseUri id = .ok (some u)) :
    ∃ s, Url.scheme? u = some s := by
  rw [baseUri, ← UrlLibrary.resolver_web] at found
  exact laws.library UrlLibrary.web UrlLibrary.writesSchemes_web id u found

/-- In any arena, reachable or not. -/
theorem absoluteBaseLaws (a : Arena) : a.AbsoluteBaseLaws where
  closed _ closed _ _ found := absolute_of_baseAlong closed found
  library _ writes _ _ found := exists_scheme?_of_baseUriWith writes found

-- A relative reference against the address of a document.
example :
    let a := ((Session.start {}).runAll
      [.createDocument (some "HTTP://h/dir/x"), .createElement none "r", .appendChild ⟨1⟩ ⟨2⟩,
        .addAttribute ⟨2⟩ (some xmlNamespace) "xml:base" "base" "../a/"]).arena
    a.baseUri ⟨2⟩ = .ok (some "http://h/a/") := by
  decide +kernel

end Arena

end XmlTree
