import XmlTree.Proofs.Answer
import XmlTree.Proofs.Edit
import XmlTree.Proofs.Ownership.Children

/-!
# Filing on shelves

A node that an element claims leaves the shelf of its old owner, takes its place on
the shelf of the element, and the node that stood there is left without an owner.
`Arena.claimed` is the arena after all that, and `Arena.discharged` the arena after
the node under a key has been taken off.  In a consistent arena `claim` and
`discharge` lead there and cannot fail (`claim_eq`, `discharge_eq`).

Whoever stood in the place afterwards stands nowhere, the claimed node stands in that
place only, and everyone else stands where they stood (`lists_claimed`,
`lists_discharged`).  So both steps keep an arena consistent.
-/

namespace XmlTree.Arena

variable {κ : Type} [DecidableEq κ] {shelf : Shelf κ} {file : κ → Place}
variable {a : Arena} {element id owner x : NodeId} {key : κ} {place : Place} {data : ElementData}

/-! ## The arenas that are reached -/

/-- The node under a key on the shelf of an element. -/
def occupant? (a : Arena) (shelf : Shelf κ) (element : NodeId) (key : κ) : Option NodeId :=
  (a.shelfAt shelf element).get? key

/-- The arena with a node taken off the shelf of its owner, unless that is `element`. -/
def quitted (a : Arena) (shelf : Shelf κ) (element id : NodeId) (key : κ) : Arena :=
  match a.owner? id with
  | none => a
  | some owner => if owner = element then a else a.update owner (shelf.erase key)

/-- The arena with a node filed on the shelf of `element`, whoever else is there. -/
def filed (a : Arena) (shelf : Shelf κ) (element id : NodeId) (key : κ) : Arena :=
  (a.update element (shelf.insert key id)).update id (Node.withParent (some element))

/-- The arena with a node left without an owner, if it is given. -/
def disowned (a : Arena) : Option NodeId → Arena
  | none => a
  | some id => a.update id (Node.withParent none)

/-- The arena with a node moved onto the shelf of `element`. -/
def claimed (a : Arena) (shelf : Shelf κ) (element id : NodeId) (key : κ) : Arena :=
  ((a.quitted shelf element id key).filed shelf element id key).disowned
    ((a.occupant? shelf element key).filter (· ≠ id))

/-- The arena with the node under a key taken off the shelf of `element`. -/
def discharged (a : Arena) (shelf : Shelf κ) (element : NodeId) (key : κ) : Arena :=
  match a.occupant? shelf element key with
  | none => a
  | some id => (a.update element (shelf.erase key)).disowned (some id)

/-! ## Leaving a shelf -/

theorem childrenAt_replace (laws : shelf.Lawful file) (g : ElementData → OrderedMap κ NodeId)
    (x : NodeId) :
    (a.update element (Node.mapElement fun data => shelf.replace (g data) data)).childrenAt x
      = a.childrenAt x :=
  childrenAt_update (Node.children_mapElement fun data => laws.children_replace (g data) data) x

theorem contains_of_element? (found : a.element? element = some data) :
    a.contains element = true := by
  obtain ⟨node, live, _⟩ := exists_find?_of_element? found
  exact contains_iff.2 ⟨node, live⟩

section Quit

theorem quitted_of_other (owned : a.owner? id = some owner) (other : owner ≠ element) :
    a.quitted shelf element id key = a.update owner (shelf.erase key) := by
  simp only [quitted, owned, if_neg other]

theorem quitted_of_home (home : ∀ owner, a.owner? id = some owner → owner = element) :
    a.quitted shelf element id key = a := by
  rw [quitted]
  cases owned : a.owner? id with
  | none => rfl
  | some owner => exact if_pos (home owner owned)

/-- A node either stays on the shelf or leaves another owner, which is an element. -/
theorem Consistent.quit_cases (h : a.Consistent) (laws : shelf.Lawful file)
    (placed : a.place? id = some (file key)) (element : NodeId) :
    (∀ owner, a.owner? id = some owner → owner = element) ∨
      ∃ owner data, a.owner? id = some owner ∧ owner ≠ element ∧ a.element? owner = some data := by
  by_cases home : ∀ owner, a.owner? id = some owner → owner = element
  · exact Or.inl home
  · right
    simp only [not_forall] at home
    obtain ⟨owner, owned, other⟩ := home
    obtain ⟨data, found⟩ := exists_element?_of_lists laws (h.lists_iff.2 ⟨owned, placed⟩)
    exact ⟨owner, data, owned, other, found⟩

theorem relinks_quitted (h : a.Consistent) (laws : shelf.Lawful file)
    (placed : a.place? id = some (file key)) (element : NodeId) :
    a.Relinks (a.quitted shelf element id key) := by
  rcases h.quit_cases laws placed element with home | ⟨owner, data, owned, other, found⟩
  · rw [quitted_of_home home]
    exact Relinks.refl a
  · rw [quitted_of_other owned other]
    exact relinks_mapElement (h.ne_xmlDeclaration_of_element? found) _

theorem owner?_quitted (a : Arena) (x : NodeId) :
    (a.quitted shelf element id key).owner? x = a.owner? x := by
  rw [quitted]
  split
  next => rfl
  next =>
    split
    · rfl
    · exact owner?_mapElement x

/-- The element that a node is on its way to is not touched when it leaves. -/
theorem element?_quitted :
    (a.quitted shelf element id key).element? element = a.element? element := by
  rw [quitted]
  split
  next => rfl
  next =>
    split
    next => rfl
    next other => rw [element?, find?_update, if_neg other, element?]

/-- A node that leaves is listed at `element` at most.  The others are listed as
before. -/
theorem lists_quitted (h : a.Consistent) (laws : shelf.Lawful file)
    (placed : a.place? id = some (file key)) :
    (a.quitted shelf element id key).Lists owner place x
      ↔ a.Lists owner place x ∧ ¬ (x = id ∧ owner ≠ element) := by
  rcases h.quit_cases laws placed element with home | ⟨owner', data, owned, other, found⟩
  · rw [quitted_of_home home, iff_self_and]
    rintro listed ⟨rfl, away⟩
    exact away (home owner (h.lists_iff.1 listed).1)
  · rw [quitted_of_other owned other, laws.lists_erase found, and_comm, and_congr_right_iff]
    intro listed
    obtain ⟨owns, place_x⟩ := h.lists_iff.1 listed
    rw [not_iff_not]
    constructor
    · rintro ⟨rfl, rfl⟩
      exact ⟨laws.unique listed (h.lists_iff.2 ⟨owned, placed⟩), other⟩
    · rintro ⟨rfl, away⟩
      exact ⟨Option.some.inj (owned.symm.trans owns), Option.some.inj (place_x.symm.trans placed)⟩

end Quit

/-! ## Claiming -/

section Claim

theorem owner?_disowned {old : Option NodeId} (live : ∀ x ∈ old, a.contains x = true) (x : NodeId) :
    (a.disowned old).owner? x = if old = some x then none else a.owner? x := by
  cases old with
  | none => simp [disowned]
  | some y =>
    simp only [disowned, owner?_withParent (live y rfl), Option.some_inj]

theorem lists_disowned {old : Option NodeId} :
    (a.disowned old).Lists owner place x ↔ a.Lists owner place x := by
  cases old with
  | none => rfl
  | some y => exact lists_withParent none

theorem childrenAt_disowned (old : Option NodeId) (x : NodeId) :
    (a.disowned old).childrenAt x = a.childrenAt x := by
  cases old with
  | none => rfl
  | some y => exact childrenAt_withParent none x

theorem relinks_disowned {old : Option NodeId} (apart : old ≠ some xmlDeclaration) :
    a.Relinks (a.disowned old) := by
  cases old with
  | none => exact Relinks.refl a
  | some y => exact relinks_withParent (fun same => apart (congrArg some same)) none

/-- A claim changes maps on the shelf and owners, one after the other. -/
theorem claimed_of_updates {P : Arena → Prop} (start : P a)
    (maps : ∀ (b : Arena) (x : NodeId) (g : ElementData → OrderedMap κ NodeId), P b →
      P (b.update x (Node.mapElement fun data => shelf.replace (g data) data)))
    (owners : ∀ (b : Arena) (x : NodeId) (parent : Option NodeId), P b →
      P (b.update x (Node.withParent parent))) : P (a.claimed shelf element id key) := by
  have quits : P (a.quitted shelf element id key) := by
    rw [quitted]
    split
    next => exact start
    next =>
      split
      next => exact start
      next => exact maps _ _ _ start
  have files : P ((a.quitted shelf element id key).filed shelf element id key) :=
    owners _ _ _ (maps _ _ _ quits)
  rw [claimed]
  cases (a.occupant? shelf element key).filter (· ≠ id) with
  | none => exact files
  | some old => exact owners _ _ _ files

theorem childrenAt_claimed (laws : shelf.Lawful file) (a : Arena) (element id : NodeId) (key : κ)
    (x : NodeId) : (a.claimed shelf element id key).childrenAt x = a.childrenAt x :=
  claimed_of_updates (P := fun b => b.childrenAt x = a.childrenAt x) rfl
    (fun _ _ g same => (childrenAt_replace laws g x).trans same)
    fun _ _ parent same => (childrenAt_withParent parent x).trans same

/-- The node in a place is owned, so it is live and not the built-in one. -/
theorem Consistent.owner?_occupant (h : a.Consistent) (laws : shelf.Lawful file)
    (stands : a.occupant? shelf element key = some x) :
    a.owner? x = some element ∧ a.place? x = some (file key) :=
  h.lists_iff.1 (laws.lists_iff.2 stands)

theorem relinks_claimed (h : a.Consistent) (laws : shelf.Lawful file)
    (found : a.element? element = some data) (placed : a.place? id = some (file key))
    (apart : id ≠ xmlDeclaration) : a.Relinks (a.claimed shelf element id key) := by
  have quit := relinks_quitted h laws placed element
  have file : (a.quitted shelf element id key).Relinks
      ((a.quitted shelf element id key).filed shelf element id key) :=
    (relinks_mapElement (h.ne_xmlDeclaration_of_element? found) _).trans
      (relinks_withParent apart _)
  refine (quit.trans file).trans (relinks_disowned fun stands => ?_)
  have stands := (Option.filter_eq_some_iff.1 stands).1
  exact h.ne_xmlDeclaration_of_owner? (h.owner?_occupant laws stands).1 rfl

/-- The claimed node has the element as its owner, the node it replaces has none. -/
theorem owner?_claimed (h : a.Consistent) (laws : shelf.Lawful file)
    (placed : a.place? id = some (file key)) :
    (a.claimed shelf element id key).owner? x
      = if id = x then some element
        else if a.occupant? shelf element key = some x then none else a.owner? x := by
  have quit := relinks_quitted h laws placed element
  have live : ((a.quitted shelf element id key).update element (shelf.insert key id)).contains id
      = true := by
    rw [contains_update, quit.contains]
    exact contains_of_place? placed
  have lives : ∀ old ∈ (a.occupant? shelf element key).filter (· ≠ id),
      ((a.quitted shelf element id key).filed shelf element id key).contains old = true := by
    intro old stands
    have stands := (Option.filter_eq_some_iff.1 stands).1
    rw [filed, contains_update, contains_update, quit.contains]
    exact contains_of_owner? (h.owner?_occupant laws stands).1
  rw [claimed, owner?_disowned lives, filed, owner?_withParent live]
  show (if _ then none else if id = x then some element
    else ((a.quitted shelf element id key).update element (Node.mapElement _)).owner? x) = _
  rw [owner?_mapElement, owner?_quitted]
  by_cases same : id = x
  · subst same
    simp
  · simp [same, Option.filter_eq_some_iff, Ne.symm same]

/-- The claimed node stands in its place, the node it replaces nowhere. -/
theorem lists_claimed (h : a.Consistent) (laws : shelf.Lawful file)
    (found : a.element? element = some data) (placed : a.place? id = some (file key)) :
    (a.claimed shelf element id key).Lists owner place x
      ↔ if id = x then owner = element ∧ place = file key
        else a.occupant? shelf element key ≠ some x ∧ a.Lists owner place x := by
  have found' : (a.quitted shelf element id key).element? element = some data := by
    rw [element?_quitted, found]
  rw [claimed, lists_disowned, filed, lists_withParent, laws.lists_insert found',
    lists_quitted h laws placed]
  have stands : a.occupant? shelf element key ≠ some x ↔ ¬ a.Lists element (file key) x :=
    not_congr laws.lists_iff.symm
  rw [stands]
  by_cases there : element = owner ∧ place = file key
  · obtain ⟨rfl, rfl⟩ := there
    by_cases same : id = x
    · simp [same]
    · simp [same]
  · rw [if_neg there]
    by_cases same : id = x
    · subst same
      rw [if_pos rfl]
      constructor
      · intro ⟨listed, stays⟩
        have home : owner = element := by simpa using stays
        subst home
        exact ⟨rfl, Option.some.inj ((h.lists_iff.1 listed).2.symm.trans placed)⟩
      · rintro ⟨rfl, rfl⟩
        exact absurd ⟨rfl, rfl⟩ there
    · rw [if_neg same]
      constructor
      · intro ⟨listed, _⟩
        refine ⟨fun stands => there ?_, listed⟩
        obtain ⟨owns, places⟩ := h.lists_iff.1 listed
        obtain ⟨owns', places'⟩ := h.lists_iff.1 stands
        exact ⟨Option.some.inj (owns'.symm.trans owns), Option.some.inj (places.symm.trans places')⟩
      · intro ⟨_, listed⟩
        exact ⟨listed, fun both => same both.1.symm⟩

theorem Consistent.claimed (h : a.Consistent) (laws : shelf.Lawful file)
    (found : a.element? element = some data) (placed : a.place? id = some (file key))
    (apart : id ≠ xmlDeclaration) : (a.claimed shelf element id key).Consistent := by
  have relinks := relinks_claimed h laws found placed apart
  refine h.of_relinks relinks (fun p => ?_) (fun x => ?_)
  · rw [childrenAt_claimed laws]
    exact h.distinct p
  · by_cases same : id = x
    · subst same
      have owned : (a.claimed shelf element id key).owner? id = some element := by
        rw [owner?_claimed h laws placed, if_pos rfl]
      refine .of_single owned ((relinks.place id).trans placed) fun p q => ?_
      rw [lists_claimed h laws found placed, if_pos rfl]
    · by_cases stands : a.occupant? shelf element key = some x
      · refine .of_unowned ?_ fun p q listed => ?_
        · rw [owner?_claimed h laws placed, if_neg same, if_pos stands]
        · rw [lists_claimed h laws found placed, if_neg same] at listed
          exact listed.1 stands
      · refine (h.settled x).congr ?_ (relinks.place x) fun p q => ?_
        · rw [owner?_claimed h laws placed, if_neg same, if_neg stands]
        · rw [lists_claimed h laws found placed, if_neg same, and_iff_right stands]

end Claim

/-! ## Discharging -/

section Discharge

theorem relinks_discharged (h : a.Consistent) (laws : shelf.Lawful file)
    (found : a.element? element = some data) (key : κ) :
    a.Relinks (a.discharged shelf element key) := by
  rw [discharged]
  cases stands : a.occupant? shelf element key with
  | none => exact Relinks.refl a
  | some old =>
    have apart := h.ne_xmlDeclaration_of_owner? (h.owner?_occupant laws stands).1
    exact (relinks_mapElement (h.ne_xmlDeclaration_of_element? found) _).trans
      (relinks_withParent apart none)

theorem owner?_discharged (h : a.Consistent) (laws : shelf.Lawful file) :
    (a.discharged shelf element key).owner? x
      = if a.occupant? shelf element key = some x then none else a.owner? x := by
  rw [discharged]
  cases stands : a.occupant? shelf element key with
  | none => rfl
  | some old =>
    have live : (a.update element (shelf.erase key)).contains old = true := by
      rw [contains_update]
      exact contains_of_owner? (h.owner?_occupant laws stands).1
    simp only [disowned, owner?_withParent live, Option.some_inj]
    exact congrArg (ite _ none) (owner?_mapElement x)

theorem childrenAt_discharged (laws : shelf.Lawful file) (x : NodeId) :
    (a.discharged shelf element key).childrenAt x = a.childrenAt x := by
  rw [discharged]
  cases a.occupant? shelf element key with
  | none => rfl
  | some old =>
    rw [childrenAt_disowned]
    exact childrenAt_replace laws _ x

theorem lists_discharged (h : a.Consistent) (laws : shelf.Lawful file)
    (found : a.element? element = some data) :
    (a.discharged shelf element key).Lists owner place x
      ↔ a.occupant? shelf element key ≠ some x ∧ a.Lists owner place x := by
  rw [discharged]
  cases stands : a.occupant? shelf element key with
  | none => simp
  | some old =>
    rw [lists_disowned, laws.lists_erase found, and_congr_left_iff, Ne, Option.some_inj,
      not_iff_not]
    have filed := laws.lists_iff.2 stands
    intro listed
    constructor
    · rintro ⟨rfl, rfl⟩
      exact laws.unique filed listed
    · intro same
      subst same
      obtain ⟨owns, places⟩ := h.lists_iff.1 listed
      obtain ⟨owns', places'⟩ := h.lists_iff.1 filed
      exact ⟨Option.some.inj (owns'.symm.trans owns), Option.some.inj (places.symm.trans places')⟩

theorem Consistent.discharged (h : a.Consistent) (laws : shelf.Lawful file)
    (found : a.element? element = some data) (key : κ) :
    (a.discharged shelf element key).Consistent := by
  have relinks := relinks_discharged h laws found key
  refine h.of_relinks relinks (fun p => ?_) (fun x => ?_)
  · rw [childrenAt_discharged laws]
    exact h.distinct p
  · cases Decidable.em (a.occupant? shelf element key = some x) with
    | inl stands =>
      refine .of_unowned ?_ fun p q listed => ?_
      · rw [owner?_discharged h laws, if_pos stands]
      · exact ((lists_discharged h laws found).1 listed).1 stands
    | inr stays =>
      refine (h.settled x).congr ?_ (relinks.place x) fun p q => ?_
      · rw [owner?_discharged h laws, if_neg stays]
      · rw [lists_discharged h laws found, and_iff_right stays]

end Discharge

/-! ## The edits -/

theorem lookup_of_element? (found : a.element? element = some data) (key : κ) :
    shelf.lookup a element key = .ok (a.occupant? shelf element key) := by
  rw [Shelf.lookup, element_eq_ok_iff.2 found, occupant?, shelfAt_of_element? shelf found]
  rfl

theorem leaveOwner_eq (h : a.Consistent) (laws : shelf.Lawful file)
    (placed : a.place? id = some (file key)) (element : NodeId) :
    Edit.leaveOwner shelf element id key a = .ok () (a.quitted shelf element id key) := by
  obtain ⟨node, live, _⟩ := exists_find?_of_place? placed
  have owners := owner?_of_find? live
  rw [Edit.leaveOwner, Edit.query_bind, Arena.parent, get_of_find? live]
  show (match node.parent with
    | none => pure ()
    | some owner => _ : Edit Unit) a = _
  cases owned : node.parent with
  | none =>
    simp only [quitted, owners, owned]
    rfl
  | some owner =>
    have listed : a.Lists owner (file key) id := h.lists_iff.2 ⟨owners.trans owned, placed⟩
    obtain ⟨data, found⟩ := exists_element?_of_lists laws listed
    have stands : a.occupant? shelf owner key = some id := laws.lists_iff.1 listed
    show (Edit.query (shelf.lookup · owner key) >>= _ : Edit Unit) a = _
    rw [Edit.query_bind, lookup_of_element? found]
    show (if a.occupant? shelf owner key = some id then _ else _ : Edit Unit) a = _
    rw [if_pos stands]
    show (if owner = element then pure () else Edit.change owner _ : Edit Unit) a = _
    simp only [quitted, owners, owned]
    split
    next home => rfl
    next other => exact Edit.change_of_live (contains_of_element? found) _

/-- An element that claims a node files it once the node has left its owner.  Only then does
the node that it replaces lose its owner, and it has to be there for that. -/
theorem claim_of_left {b : Arena} (left : Edit.leaveOwner shelf element id key a = .ok () b)
    (found : b.element? element = some data) (live : b.contains id = true) :
    Edit.claim shelf element id key a
      = match (b.occupant? shelf element key).filter (· ≠ id) with
        | none => .ok none (b.filed shelf element id key)
        | some old =>
          if b.contains old = true then
            .ok (some old) ((b.filed shelf element id key).disowned (some old))
          else .error (.notFound old) (b.filed shelf element id key) := by
  have live' : (b.update element (shelf.insert key id)).contains id = true := by
    rwa [contains_update]
  rw [Edit.claim, Edit.bind_of_ok left, Edit.query_bind, lookup_of_element? found]
  show (Edit.change element (shelf.insert key id) >>= _ : Edit (Option NodeId)) _ = _
  rw [Edit.change_bind_of_live (contains_of_element? found), Edit.setParent_bind_of_live live']
  cases stands : b.occupant? shelf element key with
  | none => rfl
  | some old =>
    by_cases same : old = id
    · have dropped : (some old).filter (· ≠ id) = none := by simp [same]
      rw [dropped]
      exact congrFun (if_pos same) _
    · have kept : (some old).filter (· ≠ id) = some old := by simp [same]
      have stays : (b.filed shelf element id key).contains old = b.contains old := by
        rw [filed, contains_update, contains_update]
      rw [kept]
      refine (congrFun (if_neg same) _).trans ?_
      show (Edit.setParent old none >>= _ : Edit (Option NodeId)) (b.filed shelf element id key) = _
      cases there : b.contains old with
      | true =>
        rw [Edit.setParent_bind_of_live (stays.trans there)]
        exact (if_pos there).symm
      | false =>
        rw [Edit.setParent_bind_of_missing (stays.trans there)]
        exact (if_neg (Bool.eq_false_iff.1 there)).symm

/-- An element that claims a node gets it, from whatever owner. -/
theorem claim_eq (h : a.Consistent) (laws : shelf.Lawful file)
    (found : a.element? element = some data) (placed : a.place? id = some (file key)) :
    Edit.claim shelf element id key a
      = .ok ((a.occupant? shelf element key).filter (· ≠ id)) (a.claimed shelf element id key) := by
  have relinks := relinks_quitted h laws placed element
  have found' : (a.quitted shelf element id key).element? element = some data := by
    rw [element?_quitted, found]
  have stays : (a.quitted shelf element id key).occupant? shelf element key
      = a.occupant? shelf element key := by
    rw [occupant?, occupant?, shelfAt, shelfAt, element?_quitted]
  have live : (a.quitted shelf element id key).contains id = true := by
    rw [relinks.contains]
    exact contains_of_place? placed
  rw [claim_of_left (leaveOwner_eq h laws placed element) found' live, stays, claimed]
  cases stands : (a.occupant? shelf element key).filter (· ≠ id) with
  | none => rfl
  | some old =>
    have oldLive : (a.quitted shelf element id key).contains old = true := by
      rw [relinks.contains]
      exact contains_of_owner? (h.owner?_occupant laws (Option.filter_eq_some_iff.1 stands).1).1
    exact if_pos oldLive

/-- An element gives up what stands under a key, if anything does. -/
theorem discharge_eq (h : a.Consistent) (laws : shelf.Lawful file) (element : NodeId) (key : κ) :
    Edit.discharge shelf element key a = match a.element element with
      | .ok _ => .ok (a.occupant? shelf element key) (a.discharged shelf element key)
      | .error e => .error e a := by
  rw [Edit.discharge, Edit.query_bind]
  cases holds : a.element element with
  | error e =>
    have failed : shelf.lookup a element key = .error e := by
      rw [Shelf.lookup, holds]
      rfl
    rw [failed]
  | ok data =>
    have found := element_eq_ok_iff.1 holds
    rw [lookup_of_element? found, discharged]
    cases stands : a.occupant? shelf element key with
    | none => rfl
    | some old =>
      have live : (a.update element (shelf.erase key)).contains old = true := by
        rw [contains_update]
        exact contains_of_owner? (h.owner?_occupant laws stands).1
      show (Edit.change element (shelf.erase key) >>= _ : Edit (Option NodeId)) a = _
      rw [Edit.change_bind_of_live (contains_of_element? found), Edit.setParent_bind_of_live live]
      rfl

end XmlTree.Arena
