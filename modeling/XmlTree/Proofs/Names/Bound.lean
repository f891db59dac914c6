import XmlTree.Proofs.Failure.Commands
import XmlTree.Proofs.Names.Naming
import XmlTree.Proofs.QName

/-!
# Prefixes need a namespace

An element without a namespace has no colon in its name, so it is never read as prefixed.  Two
commands write names, and both refuse a prefix where there is no namespace.

But `setPrefix` also takes a prefix away, and then it writes the local name as it is, whatever
colons it holds.  So the invariant is about the local name as well (`Naming.Bound`): without a
namespace it has no colon either, since it was the whole name when the element was made.
-/

namespace XmlTree

open Arena

/-- Neither name holds a colon where there is no namespace. -/
def Naming.Bound (naming : Naming) : Prop :=
  naming.expandedName.namespaceUri = none →
    ':' ∉ naming.expandedName.localName.toList ∧ ':' ∉ naming.qualifiedName.toList

variable {a a' : Arena} {config : Config} {x : NodeId} {naming : Naming}

/-! ## The commands that write names -/

/-- A name with a colon and without a namespace is refused.  Any other takes a free slot. -/
theorem Arena.createElement_eq (a : Arena) (namespaceUri : Option String) (qualifiedName : String) :
    Edit.createElement namespaceUri qualifiedName a
      = if namespaceUri = none ∧ ':' ∈ qualifiedName.toList then
          .error (.unboundPrefix qualifiedName) a
        else if a.slots.size < slotLimit then
          .ok a.nextId (a.push (.element ⟨namespaceUri, (QName.ofString qualifiedName).localName,
            qualifiedName, ∅, ∅, []⟩))
        else .error (.full a.slots.size) a := by
  have guard : ((QName.ofString qualifiedName).nsPrefix.isSome && namespaceUri.isNone) = true
      ↔ namespaceUri = none ∧ ':' ∈ qualifiedName.toList := by
    rw [Bool.and_eq_true, QName.isSome_nsPrefix_ofString_iff, Option.isNone_iff_eq_none, and_comm]
  rw [Edit.createElement]
  by_cases unbound : namespaceUri = none ∧ ':' ∈ qualifiedName.toList
  · rw [if_pos unbound, if_pos (guard.2 unbound)]
    rfl
  · rw [if_neg unbound, if_neg (guard.not.2 unbound)]
    rfl

theorem Naming.bound_create {namespaceUri : Option String} {qualifiedName : String}
    (written : namespaceUri = none → ':' ∉ qualifiedName.toList) :
    (create namespaceUri qualifiedName).Bound := by
  intro homeless
  have plain := written homeless
  refine ⟨?_, plain⟩
  rw [create, QName.ofString_of_not_mem plain]
  exact plain

theorem Naming.Bound.withPrefix {nsPrefix : Option String} (bound : naming.Bound)
    (kept : naming.expandedName.namespaceUri = none → nsPrefix = none) :
    (naming.withPrefix nsPrefix).Bound := by
  intro homeless
  obtain ⟨plain, _⟩ := bound homeless
  refine ⟨plain, ?_⟩
  rw [Naming.withPrefix, kept homeless]
  exact plain

theorem Arena.eq_none_of_setPrefix {element : NodeId} {nsPrefix : Option String}
    (ran : Edit.setPrefix element nsPrefix a = .ok () a') (named : a.naming? element = some naming)
    (homeless : naming.expandedName.namespaceUri = none) : nsPrefix = none := by
  obtain ⟨data, found, rfl⟩ := exists_element?_of_naming? named
  have none : data.namespaceUri.isNone = true := Option.isNone_iff_eq_none.2 homeless
  rw [setPrefix_eq, element_eq_ok_iff.2 found] at ran
  simp only [none, Bool.and_true] at ran
  split at ran
  next unbound => cases ran
  next bound => exact Option.not_isSome_iff_eq_none.1 bound

/-! ## The invariant -/

/-- No command breaks the invariant for a node. -/
theorem Command.bound_naming {command : Command} {documentNumber : Nat} {reply : Reply}
    (ran : command.edit documentNumber a = .ok reply a')
    (bound : ∀ naming, a.naming? x = some naming → naming.Bound)
    (named : command.naming x reply (a.naming? x) = some naming) : naming.Bound := by
  cases command with
  | createElement namespaceUri qualifiedName =>
    rw [Command.naming] at named
    split at named
    next new =>
      cases named
      refine Naming.bound_create fun homeless colon => ?_
      obtain ⟨_, ran, _⟩ := Edit.map_run_eq_ok_iff.1 ran
      rw [createElement_eq, if_pos ⟨homeless, colon⟩] at ran
      cases ran
    next old => exact bound naming named
  | setPrefix element nsPrefix =>
    rw [Command.naming] at named
    split at named
    next here =>
      subst here
      obtain ⟨before, was, rfl⟩ := Option.map_eq_some_iff.1 named
      obtain ⟨_, ran, _⟩ := Edit.map_run_eq_ok_iff.1 ran
      exact (bound before was).withPrefix (eq_none_of_setPrefix ran was)
    next elsewhere => exact bound naming named
  | _ => exact bound naming named

/-- In a reachable arena every element is named so. -/
theorem Arena.Reachable.bound (reachable : Reachable config a) (x : NodeId) (naming : Naming)
    (named : a.naming? x = some naming) : naming.Bound := by
  induction reachable generalizing naming with
  | empty =>
    rw [naming?_eq_bind_find?, find?_empty] at named
    split at named <;> cases named
  | @command a documentNumber command before ih =>
    have h := before.sound.toConsistent
    cases answer : ((command.edit documentNumber).outcome a).1 with
    | error e =>
      rw [command.eq_of_error h documentNumber answer] at named
      exact ih naming named
    | ok reply =>
      have ran := Edit.run_of_outcome answer
      rw [Command.naming?_of_ok h ran (contains_of_naming? named)] at named
      exact Command.bound_naming ran ih named

/-! ## The laws of namespaces -/

namespace Arena

/-- Prefixes and namespaces of the elements of an arena. -/
structure NamespaceLaws (a : Arena) : Prop where
  /-- An element without a namespace has no prefix, and no colon in its name. -/
  unprefixed : ∀ x data, a.element? x = some data → data.namespaceUri = none →
    data.nsPrefix = none ∧ ':' ∉ data.qualifiedName.toList
  /-- While there are free slots, an element is refused exactly when it is to have no namespace
  and a colon in its name.  That is said, and nothing is allocated. -/
  refused : a.slots.size < slotLimit → ∀ namespaceUri qualifiedName e a',
    Edit.createElement namespaceUri qualifiedName a = .error e a'
      ↔ (namespaceUri = none ∧ ':' ∈ qualifiedName.toList) ∧
        e = .unboundPrefix qualifiedName ∧ a' = a

/-- In every reachable arena, whatever the names and prefixes that were given. -/
theorem Reachable.namespaceLaws (reachable : Reachable config a) : a.NamespaceLaws where
  unprefixed x data found homeless := by
    have plain : ':' ∉ data.qualifiedName.toList :=
      (reachable.bound x _ (naming?_of_element? found) homeless).2
    refine ⟨?_, plain⟩
    rw [QName.nsPrefix_element, QName.ofString_of_not_mem plain]
  refused room namespaceUri qualifiedName e a' := by
    rw [createElement_eq]
    by_cases unbound : namespaceUri = none ∧ ':' ∈ qualifiedName.toList
    · rw [if_pos unbound, and_iff_right unbound]
      constructor
      · intro failed
        cases failed
        exact ⟨rfl, rfl⟩
      · rintro ⟨rfl, rfl⟩
        rfl
    · rw [if_neg unbound, if_pos room]
      exact iff_of_false nofun fun h => unbound h.1

/-- The laws hold after names with several colons, with an empty prefix and with an empty local
part, and after prefixes have been taken away and refused. -/
theorem namespaceLaws_of_renaming : ((Session.start {}).runAll
    [.createElement (some "u") "p:b:c", .setPrefix ⟨1⟩ none, .setPrefix ⟨1⟩ (some ""),
      .createElement none "a", .setPrefix ⟨2⟩ (some "q"), .setPrefix ⟨2⟩ none,
      .createElement (some "u") ":", .createElement none ":x"]).arena.NamespaceLaws :=
  Reachable.namespaceLaws (Reachable.runAll (s := .start {}) .empty _)

end Arena

end XmlTree
