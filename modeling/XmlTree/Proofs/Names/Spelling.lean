import XmlTree.Proofs.Identity.Run
import XmlTree.Proofs.Names.Naming
import XmlTree.Proofs.QName

/-!
# How names are spelled

The prefix of an element is not stored.  It is read off the name as written, up to the first
colon, whenever it is asked for.

`Run.given` is the prefix that a run has given to an element last, when it made the element or
by `setPrefix`.  The name as written is always the local name with this prefix
(`Arena.SpellingLaws.spelled`).  It reads back as these two when they make up a clear name and
only then (`QName.Clear`).  A prefix with a colon, or none before a local name with a colon,
makes a name that reads as another one (`incoherent_of_colons`).

A run comes to every reachable arena (`Run.exists_arena_eq`), so nothing is left out.
-/

namespace XmlTree

open Arena

/-! ## The prefix that was given last -/

/-- The prefix that an element has been given last, after a command with this reply, from the
one before it. -/
def Command.given (x : NodeId) (reply : Reply) (before : Option String) : Command → Option String
  | createElement _ qualifiedName =>
      if reply = .made x then (QName.ofString qualifiedName).nsPrefix else before
  | setPrefix element nsPrefix => if element = x then nsPrefix else before
  | _ => before

/-- The prefix that an element has been given last, up to a time. -/
def Run.given (run : Run) : Nat → NodeId → Option String
  | 0, _ => none
  | t + 1, x =>
      match run.reply t with
      | .ok reply => (run.command t).given x reply (run.given t x)
      | .error _ => run.given t x

/-- The name as written is the local name with a prefix. -/
def Naming.Spelled (naming : Naming) (nsPrefix : Option String) : Prop :=
  naming.qualifiedName = (QName.mk nsPrefix naming.expandedName.localName).toString

/-- Every command spells a name with the prefix that it gives. -/
theorem Command.spelled_naming {command : Command} {x : NodeId} {reply : Reply}
    {before : Option Naming} {nsPrefix : Option String} {naming : Naming}
    (spelled : ∀ naming ∈ before, naming.Spelled nsPrefix)
    (named : command.naming x reply before = some naming) :
    naming.Spelled (command.given x reply nsPrefix) := by
  cases command with
  | createElement namespaceUri qualifiedName =>
    rw [Command.naming] at named
    rw [Command.given]
    split at named
    next new =>
      cases named
      rw [if_pos new]
      exact (QName.toString_ofString qualifiedName).symm
    next old =>
      rw [if_neg old]
      exact spelled naming named
  | setPrefix element other =>
    rw [Command.naming] at named
    rw [Command.given]
    split at named
    next here =>
      obtain ⟨was, _, rfl⟩ := Option.map_eq_some_iff.1 named
      rw [if_pos here]
      rfl
    next elsewhere =>
      rw [if_neg elsewhere]
      exact spelled naming named
  | _ => exact spelled naming named

/-- At every time of a run, names are spelled with the prefix that was given last. -/
theorem Run.spelled (run : Run) (t : Nat) (x : NodeId) (naming : Naming)
    (named : (run.arena t).naming? x = some naming) : naming.Spelled (run.given t x) := by
  induction t generalizing naming with
  | zero =>
    rw [arena, naming?_eq_bind_find?, find?_empty] at named
    split at named <;> cases named
  | succ t ih =>
    rw [given]
    cases answer : run.reply t with
    | error e =>
      rw [arena_succ_of_error answer] at named
      exact ih naming named
    | ok reply =>
      rw [Command.naming?_of_ok (run.consistent_arena t) (edit_of_reply answer)
        (contains_of_naming? named)] at named
      exact Command.spelled_naming (fun was kept => ih was kept) named

/-! ## The laws of spelling -/

namespace Arena

/-- How the elements of an arena spell the prefixes that they were given. -/
structure SpellingLaws (a : Arena) (given : NodeId → Option String) : Prop where
  /-- The name as written is the local name with the given prefix. -/
  spelled : ∀ x data, a.element? x = some data →
    data.qualifiedName = (QName.mk (given x) data.localName).toString
  /-- It reads back as the prefix and the local name of the element exactly when it is clear. -/
  coherent : ∀ x data, a.element? x = some data →
    (QName.ofString data.qualifiedName = ⟨data.nsPrefix, data.localName⟩
      ↔ (QName.mk (given x) data.localName).Clear)
  /-- Giving another prefix leaves the expanded name as it is.  The prefix is the given one
  afterwards exactly when the name is clear. -/
  renamed : ∀ x nsPrefix a', Edit.setPrefix x nsPrefix a = .ok () a' → ∃ data data',
    a.element? x = some data ∧ a'.element? x = some data' ∧
      data'.expandedName = data.expandedName ∧
        (data'.nsPrefix = nsPrefix ↔ (QName.mk nsPrefix data.localName).Clear)

end Arena

/-- At every time of a run, with the prefixes that were given last. -/
theorem Run.spellingLaws (run : Run) (t : Nat) : (run.arena t).SpellingLaws (run.given t) where
  spelled x data found := run.spelled t x data.naming (naming?_of_element? found)
  coherent x data found := by
    have spelled : data.qualifiedName = (QName.mk (run.given t x) data.localName).toString :=
      run.spelled t x data.naming (naming?_of_element? found)
    rw [← QName.localName_ofString_toString_iff, ← spelled]
    constructor
    · intro same
      rw [same]
    · intro same
      have read : (QName.ofString data.qualifiedName).localName = data.localName := same
      rw [QName.nsPrefix_element, ← read]
  renamed x nsPrefix a' ran := by
    obtain ⟨data, found⟩ := exists_element?_of_setPrefix ran
    have named := naming?_setPrefix ran x
    rw [if_pos rfl, naming?_of_element? found, Option.map_some] at named
    obtain ⟨data', found', same⟩ := exists_element?_of_naming? named
    refine ⟨data, data', found, found', congrArg Naming.expandedName same, ?_⟩
    have written : data'.qualifiedName = (QName.mk nsPrefix data.localName).toString :=
      congrArg Naming.qualifiedName same
    rw [QName.nsPrefix_element, written]
    exact QName.nsPrefix_ofString_toString_iff

/-- An element keeps its local name with a colon and loses its prefix.  Then the text up to
that colon is read as a prefix, and what follows it as the local name. -/
theorem incoherent_of_colons :
    let run := Run.ofSession {} [.createElement (some "urn:a") "p:b:c", .setPrefix ⟨1⟩ none]
    run.reply 1 = .ok .done ∧ ∃ data, (run.arena 2).element? ⟨1⟩ = some data ∧
      data.expandedName = ⟨some "urn:a", "b:c"⟩ ∧ data.nsPrefix = some "b" ∧
        QName.ofString data.qualifiedName = ⟨some "b", "c"⟩ := by
  refine ⟨by decide +kernel, _, rfl, ?_⟩
  decide +kernel

end XmlTree
