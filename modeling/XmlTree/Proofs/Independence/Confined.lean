import XmlTree.Proofs.Failure.Commands
import XmlTree.Proofs.Independence.Alike
import XmlTree.Proofs.Ownership.Relabel
import XmlTree.Session

/-!
# Edits that stay inside a region

An edit is confined to a region when all it asks and all it changes is inside.  Run on two
arenas that look alike there, it gives the same answer or the same failure and leaves two
arenas that look alike there, and what is outside it neither sees nor changes.

Being confined goes through an edit step by step.  An answer may say where the edit goes
next, so the law for a question followed by an edit (`Confined.query_bind`) hands on what
was answered and where: the owner of a node in the region is in the region too.

Every command but those that make nodes is confined to any region around the identities
that it names (`Command.confined`).  A new slot is in no region yet.
-/

namespace XmlTree

open Arena

namespace Edit

variable {α β : Type} {region : Set NodeId} {a b a' : Arena}

/-! ## Confined edits -/

/-- Two outcomes of one edit, run on arenas that look alike inside a region.  The first
run started from `a`. -/
structure Matches (region : Set NodeId) (a : Arena) (x y : Except TreeError α × Arena) : Prop where
  /-- The answers or the failures are the same. -/
  answer : y.1 = x.1
  /-- The arenas still look alike. -/
  alike : x.2.Alike region y.2
  /-- Nothing outside has changed. -/
  spares : a.Spares region x.2

/-- Whether an edit asks and changes nothing outside a region. -/
def Confined (region : Set NodeId) (edit : Edit α) : Prop :=
  ∀ a b : Arena, a.Alike region b → Matches region a (edit.outcome a) (edit.outcome b)

theorem outcome_of_ok {edit : Edit α} {answer : α} (ran : edit a = .ok answer a') :
    edit.outcome a = (.ok answer, a') := by
  rw [outcome, ran]

theorem outcome_of_error {edit : Edit α} {e : TreeError} (ran : edit a = .error e a') :
    edit.outcome a = (.error e, a') := by
  rw [outcome, ran]

namespace Confined

theorem pure (v : α) : Confined region (Pure.pure v : Edit α) :=
  fun a _ alike => ⟨rfl, alike, .refl region a⟩

theorem throw (e : TreeError) : Confined region (throw e : Edit α) :=
  fun a _ alike => ⟨rfl, alike, .refl region a⟩

theorem throw_bind (e : TreeError) (next : α → Edit β) :
    Confined region ((MonadExcept.throw e : Edit α) >>= next) :=
  fun a _ alike => ⟨rfl, alike, .refl region a⟩

theorem ite {c : Prop} [Decidable c] {yes no : Edit α} (h : Confined region yes)
    (h' : Confined region no) : Confined region (if c then yes else no) := by
  split
  · exact h
  · exact h'

theorem bind {first : Edit α} {next : α → Edit β} (h : Confined region first)
    (later : ∀ v, Confined region (next v)) : Confined region (first >>= next) := by
  intro a b alike
  have runs := h a b alike
  cases ranA : first a with
  | ok v a' =>
    cases ranB : first b with
    | ok w b' =>
      rw [outcome_of_ok ranA, outcome_of_ok ranB] at runs
      obtain rfl : w = v := Except.ok.inj runs.answer
      have goes := later w a' b' runs.alike
      rw [outcome, outcome, bind_of_ok ranA, bind_of_ok ranB]
      exact ⟨goes.answer, goes.alike, runs.spares.trans goes.spares⟩
    | error e b' =>
      rw [outcome_of_ok ranA, outcome_of_error ranB] at runs
      cases runs.answer
  | error e a' =>
    cases ranB : first b with
    | ok w b' =>
      rw [outcome_of_error ranA, outcome_of_ok ranB] at runs
      cases runs.answer
    | error f b' =>
      rw [outcome_of_error ranA, outcome_of_error ranB] at runs
      obtain rfl : f = e := Except.error.inj runs.answer
      rw [outcome_of_error (bind_of_error ranA), outcome_of_error (bind_of_error ranB)]
      exact ⟨rfl, runs.alike, runs.spares⟩

theorem map {edit : Edit α} (h : Confined region edit) (f : α → β) :
    Confined region (f <$> edit) := by
  rw [map_eq_pure_bind]
  exact h.bind fun v => .pure (f v)

/-- What follows a question may rely on the answer. -/
theorem query_bind {question : Arena → Except TreeError α} {next : α → Edit β}
    (sees : ∀ a b : Arena, a.Alike region b → question b = question a)
    (later : ∀ (a : Arena) (v : α), a.Alike region a → question a = .ok v →
      Confined region (next v)) : Confined region (query question >>= next) := by
  intro a b alike
  rw [outcome, outcome, Edit.query_bind, Edit.query_bind, sees a b alike]
  cases answered : question a with
  | error e => exact ⟨rfl, alike, .refl region a⟩
  | ok v => exact later a v alike.refl_left answered a b alike

theorem discard_query_bind {question : Arena → Except TreeError α} {next : Unit → Edit β}
    (sees : ∀ a b : Arena, a.Alike region b → question b = question a)
    (later : Confined region (next ())) : Confined region (discard (query question) >>= next) := by
  intro a b alike
  rw [outcome, outcome, Edit.discard_query_bind, Edit.discard_query_bind, sees a b alike]
  cases question a with
  | error e => exact ⟨rfl, alike, .refl region a⟩
  | ok v => exact later a b alike

end Confined

theorem confined_change {id : NodeId} (inside : id ∈ region) {f : Node → Node}
    (keeps : ∀ (a : Arena) (node : Node), a.find? id = some node → node.Within region →
      (f node).Within region) (spares : ∀ node, (f node).kind.core = node.kind.core) :
    Confined region (change id f) := by
  intro a b alike
  rw [outcome, outcome, change, change, alike.contains inside]
  cases a.contains id with
  | true => exact ⟨rfl, alike.update (keeps a), spares_update inside fun node _ => spares node⟩
  | false => exact ⟨rfl, alike, .refl region a⟩

theorem confined_setParent {id : NodeId} (inside : id ∈ region) {parent : Option NodeId}
    (parentInside : ∀ owner, parent = some owner → owner ∈ region) :
    Confined region (setParent id parent) :=
  confined_change inside (fun _ _ _ within => within.withParent parentInside) fun _ => rfl

/-! ## Children -/

variable {parent child reference id element : NodeId}

theorem confined_detach (inside : child ∈ region) : Confined region (detach child) := by
  refine .query_bind (fun _ _ alike => alike.parent inside) fun a owner alike answered => ?_
  cases owner with
  | none => exact .pure ()
  | some owner =>
    have ownerInside := alike.mem_of_parent inside answered
    refine .query_bind (fun _ _ alike => alike.containerChildren ownerInside) fun _ _ _ _ => ?_
    refine .ite (.bind (confined_change ownerInside (fun _ _ _ within => ?_) fun node =>
      node.kind.core_mapChildren _) fun _ => ?_) (.throw_bind _ _)
    · exact within.mapChildren fun ids insides x member => insides x (List.mem_of_mem_erase member)
    · exact confined_setParent inside nofun

theorem confined_attach (parentInside : parent ∈ region) (inside : child ∈ region)
    {place : List NodeId → List NodeId}
    (places : ∀ ids, ∀ x ∈ place ids, x = child ∨ x ∈ ids) :
    Confined region (attach parent child place) := by
  refine .discard_query_bind (fun _ _ alike => alike.containerChildren parentInside) ?_
  refine .bind (confined_change parentInside (fun _ _ _ within => ?_) fun node =>
    node.kind.core_mapChildren _) fun _ => ?_
  · refine within.mapChildren fun ids insides x member => ?_
    rcases places ids x member with rfl | old
    · exact inside
    · exact insides x old
  · exact confined_setParent inside fun owner same => Option.some.inj same ▸ parentInside

theorem confined_appendChild (parentInside : parent ∈ region) (inside : child ∈ region) :
    Confined region (appendChild parent child) := by
  refine .query_bind (fun _ _ alike => alike.checkInsertable parentInside inside) fun _ _ _ _ => ?_
  refine .bind (confined_detach inside) fun _ => confined_attach parentInside inside ?_
  intro ids x member
  exact (List.mem_append.1 member).symm.imp_left List.mem_singleton.1

theorem confined_insertBefore (parentInside : parent ∈ region) (inside : child ∈ region)
    (referenceInside : reference ∈ region) :
    Confined region (insertBefore parent child reference) := by
  refine .query_bind (fun _ _ alike => alike.get referenceInside) fun _ node _ _ => ?_
  refine .ite (.throw_bind _ _) (.ite (.pure ()) ?_)
  refine .query_bind (fun _ _ alike => alike.checkInsertable parentInside inside) fun _ _ _ _ => ?_
  refine .query_bind (fun _ _ alike => alike.children parentInside) fun _ siblings _ _ => ?_
  cases placeBefore siblings child reference with
  | none => exact .throw _
  | some position =>
    refine .bind (confined_detach inside) fun _ => confined_attach parentInside inside ?_
    intro ids x member
    exact List.eq_or_mem_of_mem_insertIdx member

theorem confined_removeChild (inside : child ∈ region) :
    Confined region (removeChild parent child) := by
  refine .query_bind (fun _ _ alike => alike.get inside) fun _ node _ _ => ?_
  exact .ite (.throw_bind _ _) (.ite (confined_detach inside) (.throw _))

theorem confined_release (inside : id ∈ region) : Confined region (release id) := by
  refine .ite (.throw_bind _ _) ?_
  refine .query_bind (fun _ _ alike => alike.parent inside) fun _ owner _ _ => ?_
  cases owner with
  | some owner => exact .throw _
  | none =>
    intro a b alike
    obtain ⟨swept, spared⟩ := alike.sweep fun x member => List.mem_singleton.1 member ▸ inside
    exact ⟨rfl, swept, spared⟩

/-! ## Shelves -/

section Shelves

variable {κ : Type} [DecidableEq κ] {shelf : Shelf κ} {file : κ → Place}

theorem confined_erase (laws : shelf.Lawful file) (elementInside : element ∈ region) (key : κ) :
    Confined region (change element (shelf.erase key)) :=
  confined_change elementInside (fun _ _ found within => laws.within_erase found within key)
    fun node => node.kind.core_mapElement fun data => laws.expandedName_replace _ data

theorem confined_leaveOwner (laws : shelf.Lawful file) (inside : id ∈ region) (key : κ) :
    Confined region (leaveOwner shelf element id key) := by
  refine .query_bind (fun _ _ alike => alike.parent inside) fun _ owner alike answered => ?_
  cases owner with
  | none => exact .pure ()
  | some owner =>
    have ownerInside := alike.mem_of_parent inside answered
    refine .query_bind (fun _ _ alike => alike.lookup ownerInside shelf key) fun _ listed _ _ => ?_
    refine .ite ?_ (.throw_bind _ _)
    exact .ite (.pure ()) (confined_erase laws ownerInside key)

theorem confined_claim (laws : shelf.Lawful file) (elementInside : element ∈ region)
    (inside : id ∈ region) (key : κ) : Confined region (claim shelf element id key) := by
  refine .bind (confined_leaveOwner laws inside key) fun _ => ?_
  refine .query_bind (fun _ _ alike => alike.lookup elementInside shelf key)
    fun _ occupant alike answered => ?_
  refine .bind (confined_change elementInside (fun _ _ found within =>
    laws.within_insert found within inside key) fun node =>
      node.kind.core_mapElement fun data => laws.expandedName_replace _ data) fun _ => ?_
  refine .bind (confined_setParent inside fun owner same =>
    Option.some.inj same ▸ elementInside) fun _ => ?_
  cases occupant with
  | none => exact .pure none
  | some old =>
    have oldInside := alike.mem_of_lookup elementInside laws answered
    exact .ite (.pure none) (.bind (confined_setParent oldInside nofun) fun _ => .pure _)

theorem confined_discharge (laws : shelf.Lawful file) (elementInside : element ∈ region) (key : κ) :
    Confined region (discharge shelf element key) := by
  refine .query_bind (fun _ _ alike => alike.lookup elementInside shelf key)
    fun _ occupant alike answered => ?_
  cases occupant with
  | none => exact .pure none
  | some id =>
    have inside := alike.mem_of_lookup elementInside laws answered
    refine .bind (confined_erase laws elementInside key) fun _ => ?_
    exact .bind (confined_setParent inside nofun) fun _ => .pure _

theorem confined_setAttribute (elementInside : element ∈ region) (inside : id ∈ region) :
    Confined region (setAttribute element id) := by
  refine .discard_query_bind (fun _ _ alike => alike.element elementInside) ?_
  refine .query_bind (fun _ _ alike => alike.attributeData inside) fun _ data _ _ => ?_
  exact confined_claim Shelf.attributes_lawful elementInside inside data.expandedName

theorem confined_setNamespace (elementInside : element ∈ region) (inside : id ∈ region) :
    Confined region (setNamespace element id) := by
  refine .ite (.throw_bind _ _) ?_
  refine .discard_query_bind (fun _ _ alike => alike.element elementInside) ?_
  refine .query_bind (fun _ _ alike => alike.namespaceData inside) fun _ data _ _ => ?_
  exact confined_claim Shelf.declarations_lawful elementInside inside data.nsPrefix

end Shelves

/-! ## Names and addresses -/

theorem confined_setPrefix (inside : element ∈ region) (nsPrefix : Option String) :
    Confined region (setPrefix element nsPrefix) := by
  refine .query_bind (fun _ _ alike => alike.element inside) fun _ data _ _ => ?_
  refine .ite (.throw_bind _ _) (confined_change inside (fun _ _ _ within => ?_) fun node => ?_)
  · exact within.qualifiedName _
  · refine NodeKind.core_mapElement (fun _ => ?_) node.kind
    rfl

-- The next two write back the data that they have read, so here it counts that nothing
-- happens between the question and the change.

theorem confined_setAttributeValue (inside : id ∈ region) (value : String) :
    Confined region (setAttributeValue id value) := by
  intro a b alike
  rw [outcome, outcome, setAttributeValue_eq, setAttributeValue_eq, alike.attributeData inside]
  cases holds : a.attributeData id with
  | error e => exact ⟨rfl, alike, .refl region a⟩
  | ok data =>
    obtain ⟨node, found, kind⟩ := attributeData_eq_ok_iff.1 holds
    refine ⟨rfl, alike.update fun _ _ within =>
      ⟨within.parent, fun _ owned => absurd owned List.not_mem_nil⟩,
      spares_update inside fun node' found' => ?_⟩
    obtain rfl := Option.some.inj (found.symm.trans found')
    rw [kind]
    rfl

theorem confined_setDocumentUri (inside : id ∈ region) (uri : Option String) :
    Confined region (setDocumentUri id uri) := by
  intro a b alike
  rw [outcome, outcome, setDocumentUri_eq, setDocumentUri_eq, alike.document inside]
  cases holds : a.document id with
  | error e => exact ⟨rfl, alike, .refl region a⟩
  | ok data =>
    obtain ⟨node, found, kind⟩ := document_eq_ok_iff.1 holds
    have owned := (alike.closed id inside node found).owned
    rw [kind] at owned
    refine ⟨rfl, alike.update fun _ _ within => ⟨within.parent, owned⟩,
      spares_update inside fun node' found' => ?_⟩
    obtain rfl := Option.some.inj (found.symm.trans found')
    rw [kind]
    rfl

end Edit

/-! ## Commands -/

/-- Whether a command makes a node. -/
def Command.creates : Command → Bool
  | createDocument _ | createElement _ _ | createAttribute _ _ _ _ | createNamespace _ _
  | createText _ | createComment _ | addAttribute _ _ _ _ _ | addNamespace _ _ _ => true
  | _ => false

/-- A command that makes no node is confined to any region that holds what it names. -/
theorem Command.confined {region : Set NodeId} {command : Command}
    (makesNothing : command.creates = false) (inside : ∀ id ∈ command.ids, id ∈ region)
    (documentNumber : Nat) : (command.edit documentNumber).Confined region := by
  cases command with
  | appendChild parent child =>
    exact (Edit.confined_appendChild (inside _ (by simp [ids])) (inside _ (by simp [ids]))).map _
  | insertBefore parent child reference =>
    exact (Edit.confined_insertBefore (inside _ (by simp [ids])) (inside _ (by simp [ids]))
      (inside _ (by simp [ids]))).map _
  | removeChild parent child => exact (Edit.confined_removeChild (inside _ (by simp [ids]))).map _
  | release id => exact (Edit.confined_release (inside _ (by simp [ids]))).map _
  | setPrefix element nsPrefix =>
    exact (Edit.confined_setPrefix (inside _ (by simp [ids])) nsPrefix).map _
  | setDocumentUri document uri =>
    exact (Edit.confined_setDocumentUri (inside _ (by simp [ids])) uri).map _
  | setAttribute element id =>
    exact (Edit.confined_setAttribute (inside _ (by simp [ids])) (inside _ (by simp [ids]))).map _
  | removeAttribute element name =>
    exact (Edit.confined_discharge Shelf.attributes_lawful (inside _ (by simp [ids])) name).map _
  | setAttributeValue id value =>
    exact (Edit.confined_setAttributeValue (inside _ (by simp [ids])) value).map _
  | setNamespace element id =>
    exact (Edit.confined_setNamespace (inside _ (by simp [ids])) (inside _ (by simp [ids]))).map _
  | removeNamespace element nsPrefix =>
    exact (Edit.confined_discharge Shelf.declarations_lawful (inside _ (by simp [ids]))
      nsPrefix).map _
  | _ => cases makesNothing

end XmlTree
