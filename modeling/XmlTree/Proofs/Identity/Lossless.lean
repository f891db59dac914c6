import XmlTree.Proofs.Creation
import XmlTree.Proofs.Linking

/-!
# Which nodes are live

An edit is *lossless* when every node that is live before it is live after it, whether the
edit succeeds or fails.  An edit that only links is, and so is one that writes another name or
value.  No step but the sweep of a release empties a slot.

So what a command does to the set of live nodes can be said once for all commands
(`Command.contains_iff`): the node that it makes is live afterwards, the nodes that its
release covers are not, and the others are if they were before.
-/

namespace XmlTree

open Arena
open Relation (ReflTransGen)

namespace Edit

variable {α β : Type} {a a' : Arena} {top : NodeId}

/-- Every node that is live before the edit is live after it. -/
def Lossless (edit : Edit α) : Prop :=
  ∀ (a : Arena) (x : NodeId), a.contains x = true → (edit.outcome a).2.contains x = true

/-- What keeps its content is still live. -/
theorem Links.lossless {edit : Edit α} (links : edit.Links) : edit.Lossless := by
  intro a x live
  rw [contains_eq_isSome_content?, links a x, ← contains_eq_isSome_content?]
  exact live

theorem Lossless.map {edit : Edit α} (h : edit.Lossless) (f : α → β) : (f <$> edit).Lossless := by
  intro a x live
  have kept := h a x live
  rw [outcome] at kept ⊢
  rw [map_run]
  cases ran : edit a with
  | ok v a' => rwa [ran] at kept
  | error e a' => rwa [ran] at kept

/-! ## Names and addresses -/

theorem lossless_setPrefix (element : NodeId) (nsPrefix : Option String) :
    (setPrefix element nsPrefix).Lossless := by
  intro a x live
  rw [outcome, setPrefix_eq]
  cases a.element element with
  | error e => exact live
  | ok data =>
    dsimp only
    cases nsPrefix.isSome && data.namespaceUri.isNone with
    | true => exact live
    | false => exact (contains_update a element _ x).trans live

theorem lossless_setAttributeValue (id : NodeId) (value : String) :
    (setAttributeValue id value).Lossless := by
  intro a x live
  rw [outcome, setAttributeValue_eq]
  cases a.attributeData id with
  | error e => exact live
  | ok data => exact (contains_update a id _ x).trans live

theorem lossless_setDocumentUri (document : NodeId) (uri : Option String) :
    (setDocumentUri document uri).Lossless := by
  intro a x live
  rw [outcome, setDocumentUri_eq]
  cases a.document document with
  | error e => exact live
  | ok data => exact (contains_update a document _ x).trans live

end Edit

/-- A sweep takes away what is below the swept node and nothing else. -/
theorem Arena.contains_sweep_iff {a : Arena} {top x : NodeId} :
    (a.sweep [top]).contains x = true ↔ a.contains x = true ∧ ¬ ReflTransGen a.Holds top x := by
  have covers : a.Covers [top] x ↔ ReflTransGen a.Holds top x := by simp [Covers]
  rw [← covers]
  by_cases covered : a.Covers [top] x
  · simp [Arena.contains, find?_sweep_of_covers covered, covered]
  · simp [Arena.contains, find?_sweep_of_not_covers covered, covered]

/-! ## Commands -/

namespace Command

variable {a a' : Arena} {documentNumber : Nat} {command : Command} {reply : Reply} {x : NodeId}

/-- Whether a command asks for a release that takes a node away: the node that is to be
released or one below it. -/
def Covers (a : Arena) (x : NodeId) : Command → Prop
  | release top => ReflTransGen a.Holds top x
  | _ => False

/-- No command loses a node but by a release. -/
theorem lossless (makesNothing : command.creates = false) (other : ∀ top, command ≠ .release top)
    (documentNumber : Nat) : (command.edit documentNumber).Lossless := by
  cases command with
  | appendChild _ _ | insertBefore _ _ _ | removeChild _ _ | setAttribute _ _ | removeAttribute _ _
  | setNamespace _ _ | removeNamespace _ _ => exact (links rfl documentNumber).lossless
  | setPrefix element nsPrefix => exact (Edit.lossless_setPrefix element nsPrefix).map _
  | setAttributeValue id value => exact (Edit.lossless_setAttributeValue id value).map _
  | setDocumentUri document uri => exact (Edit.lossless_setDocumentUri document uri).map _
  | release top => exact absurd rfl (other top)
  | _ => cases makesNothing

theorem contains_iff_of_made (h : a.Consistent) {kind : NodeKind}
    (payload : command.payload? documentNumber = some kind)
    (ran : command.edit documentNumber a = .ok reply a') :
    a'.contains x = true ↔ reply = .made x ∨ a.contains x = true := by
  obtain ⟨rfl, makes⟩ := creation h payload ran
  rw [(makes.relinks h (owned_of_payload? payload)).contains, Arena.contains, find?_push]
  split
  next new => simp [new]
  next old => simp [old, Arena.contains]

theorem contains_iff_of_not_made (nothing : command.payload? documentNumber = none)
    (ran : command.edit documentNumber a = .ok reply a') :
    a'.contains x = true ↔ a.contains x = true ∧ ¬ command.Covers a x := by
  have makesNothing : command.creates = false := by
    rw [creates_eq_isSome_payload? documentNumber, nothing, Option.isSome_none]
  have others : (∀ top, command ≠ .release top) →
      (a'.contains x = true ↔ a.contains x = true ∧ ¬ command.Covers a x) := by
    intro other
    have uncovered : ¬ command.Covers a x := by
      cases command with
      | release top => exact absurd rfl (other top)
      | _ => exact id
    rw [and_iff_left uncovered]
    constructor
    · intro live
      obtain ⟨node', found'⟩ := Arena.contains_iff.1 live
      obtain ⟨node, found, _⟩ := (spares nothing ran).2.core x node' found'
      exact Arena.contains_iff.2 ⟨node, found⟩
    · intro live
      have kept := lossless makesNothing other documentNumber a x live
      rwa [Edit.outcome_of_ok ran] at kept
  cases command with
  | release top =>
    obtain ⟨_, ran, _⟩ := Edit.map_run_eq_ok_iff.1 ran
    rw [(release_eq_ok_iff.1 ran).2.2, contains_sweep_iff]
    rfl
  | _ => exact others fun _ => Command.noConfusion

/-- What is live after a command that succeeds: the node that it made, and what was live
before and is not covered. -/
theorem contains_iff (h : a.Consistent) (ran : command.edit documentNumber a = .ok reply a') :
    a'.contains x = true ↔ reply = .made x ∨ a.contains x = true ∧ ¬ command.Covers a x := by
  cases payload : command.payload? documentNumber with
  | none =>
    have unmade : reply ≠ .made x := (spares payload ran).1 x
    rw [contains_iff_of_not_made payload ran, or_iff_right unmade]
  | some kind =>
    have uncovered : ¬ command.Covers a x := by
      cases command with
      | release top => cases payload
      | _ => exact id
    rw [contains_iff_of_made h payload ran, and_iff_left uncovered]

end Command

end XmlTree
