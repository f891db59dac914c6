import XmlTree.Proofs.Frame.Renamed
import XmlTree.Proofs.Siblings
import XmlTree.Proofs.Transfer

/-!
# Replacement keeps document order

An element that is given an attribute or a declaration may have another one under the same
key.  The new one then stands where the old one stood, and nothing else in document order
changes (`InPlace`).  If there is no old one, the new one comes last of its map, before what
is listed after that map (`ComesLast`).

The new node takes over the name of the old one (`standIn`), and is left out where it was.
Under these names every list of the old arena goes on (`Consistent.renames_claimed`): the
map of the element is the same entry by entry, or longer by one, the map of another owner is
shorter by one, and the lists around the maps are not touched at all (`Shelf.Between`).
-/

namespace XmlTree

open Arena

/-! ## The lists around a map -/

/-- What a node lists is the map on a shelf between two lists that no claim touches. -/
structure Shelf.Between {κ : Type} [DecidableEq κ] (shelf : Shelf κ)
    (before after : Arena → NodeId → List NodeId) : Prop where
  /-- The map stands between the two. -/
  below : ∀ a owner, a.below owner
    = before a owner ++ ((a.shelfAt shelf owner).values ++ after a owner)
  /-- The children come after the map. -/
  children : ∀ a owner, a.childrenAt owner ⊆ after a owner
  /-- A claim leaves the first list alone. -/
  before_claimed : ∀ a element id key owner,
    before (a.claimed shelf element id key) owner = before a owner
  /-- A claim leaves the second list alone. -/
  after_claimed : ∀ a element id key owner,
    after (a.claimed shelf element id key) owner = after a owner

namespace Arena

variable {κ : Type} [DecidableEq κ] {shelf : Shelf κ} {file : κ → Place}
variable {before after : Arena → NodeId → List NodeId}
variable {a a' : Arena} {element id owner x y : NodeId} {key : κ} {data : ElementData}
variable {config : Config}

/-- A map on another shelf is not touched. -/
theorem shelfAt_claimed_of_other {ν : Type} {other : Shelf ν}
    (apart : ∀ map data, other.view (shelf.replace map data) = other.view data) (a : Arena)
    (element id : NodeId) (key : κ) (x : NodeId) :
    (a.claimed shelf element id key).shelfAt other x = a.shelfAt other x := by
  refine claimed_of_updates (P := fun b => b.shelfAt other x = a.shelfAt other x) rfl
    (fun b y g same => (shelfAt_update (fun node => ?_) x).trans same)
    fun b y parent same => (shelfAt_withParent other parent x).trans same
  rw [Node.element?_mapElement, Option.map_map]
  exact congrArg (Option.map · node.element?) (funext fun data => apart _ data)

end Arena

theorem Shelf.attributes_between : Shelf.attributes.Between
    (fun a owner => (a.shelfAt .declarations owner).values) Arena.childrenAt where
  below _ _ := List.append_assoc _ _ _
  children _ _ := List.Subset.refl _
  before_claimed a element id key owner := by
    rw [shelfAt_claimed_of_other fun _ _ => rfl]
  after_claimed a element id key owner :=
    childrenAt_claimed attributes_lawful a element id key owner

theorem Shelf.declarations_between : Shelf.declarations.Between (fun _ _ => [])
    (fun a owner => (a.shelfAt .attributes owner).values ++ a.childrenAt owner) where
  below _ _ := List.append_assoc _ _ _
  children _ _ := List.subset_append_right _ _
  before_claimed _ _ _ _ _ := rfl
  after_claimed a element id key owner := by
    rw [shelfAt_claimed_of_other fun _ _ => rfl, childrenAt_claimed declarations_lawful]

namespace Arena

variable {κ : Type} [DecidableEq κ] {shelf : Shelf κ} {file : κ → Place}
variable {before after : Arena → NodeId → List NodeId}
variable {a a' : Arena} {element id owner x y : NodeId} {key : κ} {data : ElementData}
variable {config : Config}

/-! ## Standing in -/

/-- What stands where a node stood: the node itself, unless it is the one that was replaced. -/
def standIn (old : Option NodeId) (id x : NodeId) : NodeId := if old = some x then id else x

theorem map_standIn {old : Option NodeId} {ids : List NodeId}
    (apart : ∀ x ∈ ids, old ≠ some x) : ids.map (standIn old id) = ids := by
  refine (List.map_congr_left fun x member => ?_).trans (List.map_id ids)
  exact if_neg (apart x member)

/-- A key under which a node is filed is the only one. -/
theorem Consistent.eq_of_filed (h : a.Consistent) (laws : shelf.Lawful file)
    (placed : a.place? x = some (file key)) {k : κ}
    (stands : (a.shelfAt shelf owner).get? k = some x) : k = key :=
  laws.inj (Option.some.inj ((h.owner?_occupant laws stands).2.symm.trans placed))

/-- The node under the key is in no other list. -/
theorem Consistent.occupant_ne_of_mem (h : a.Consistent) (laws : shelf.Lawful file)
    (between : shelf.Between before after)
    (member : x ∈ before a owner ++ after a owner ∨
      owner ≠ element ∧ x ∈ (a.shelfAt shelf owner).values) :
    a.occupant? shelf element key ≠ some x := by
  intro stands
  have filed : x ∈ (a.shelfAt shelf element).values := OrderedMap.mem_values_iff.2 ⟨key, stands⟩
  have listed : x ∈ a.below owner := by
    rw [between.below]
    simp only [List.mem_append] at member ⊢
    tauto
  have home : owner = element :=
    Option.some.inj ((h.mem_below_iff.1 listed).symm.trans (h.owner?_occupant laws stands).1)
  subst home
  have distinct := h.nodup_below owner
  rw [between.below, List.nodup_append, List.nodup_append] at distinct
  rcases member with around | ⟨other, _⟩
  · rcases List.mem_append.1 around with first | last
    · exact distinct.2.2 x first x (List.mem_append_left _ filed) rfl
    · exact distinct.2.1.2.2 x filed x last rfl
  · exact other rfl

/-- Each map goes on under the new names. -/
theorem Consistent.values_claimed (h : a.Consistent) (laws : shelf.Lawful file)
    (between : shelf.Between before after) (found : a.element? element = some data)
    (placed : a.place? id = some (file key)) (owner : NodeId) :
    (((a.shelfAt shelf owner).values.filter (· ≠ id)).map
        (standIn (a.occupant? shelf element key) id)).Sublist
      ((a.claimed shelf element id key).shelfAt shelf owner).values := by
  rw [shelfAt_claimed h laws found placed]
  split
  next home =>
    subst home
    cases stands : a.occupant? shelf owner key with
    | none =>
      rw [map_standIn fun x _ => (Option.some_ne_none x).symm,
        OrderedMap.values_insert_of_fresh id stands]
      exact List.filter_sublist.trans (List.sublist_append_left _ _)
    | some old =>
      have names : standIn (some old) id = fun x => if x = old then id else x := by
        funext x
        simp only [standIn, Option.some_inj, eq_comm]
      have once : ∀ k, (a.shelfAt shelf owner).get? k = some old → k = key :=
        fun k => h.eq_of_filed laws (h.owner?_occupant laws stands).2
      rw [names, OrderedMap.values_insert_of_get? id stands once]
      exact List.filter_sublist.map _
  next other =>
    rw [map_standIn fun x member => h.occupant_ne_of_mem laws between
      (.inr ⟨other, List.mem_of_mem_filter member⟩)]
    split
    next owned =>
      have stands := laws.lists_iff.1 (h.lists_iff.2 ⟨owned, placed⟩)
      rw [OrderedMap.values_erase_of_get? stands fun k => h.eq_of_filed laws placed]
    next => exact List.filter_sublist

/-- Under the new names the order of the old arena goes on. -/
theorem Consistent.renames_claimed (h : a.Consistent) (laws : shelf.Lawful file)
    (exact : shelf.Exact) (between : shelf.Between before after)
    (found : a.element? element = some data) (placed : a.place? id = some (file key))
    (apart : id ≠ xmlDeclaration) :
    Renames (standIn (a.occupant? shelf element key) id) id a
      (a.claimed shelf element id key) where
  below p := by
    cases Decidable.em (a.occupant? shelf element key = some p) with
    | inl stands =>
      rw [below_of_file h laws (h.owner?_occupant laws stands).2]
      exact List.nil_sublist _
    | inr other =>
      have around : ∀ {ids : List NodeId}, (∀ x ∈ ids, x ∈ before a p ++ after a p) →
          ((ids.filter (· ≠ id)).map (standIn (a.occupant? shelf element key) id)).Sublist ids := by
        intro ids inside
        rw [map_standIn fun x member => h.occupant_ne_of_mem laws between
          (.inl (inside x (List.mem_of_mem_filter member)))]
        exact List.filter_sublist
      rw [standIn, if_neg other, between.below, between.below, between.before_claimed,
        between.after_claimed, List.filter_append, List.filter_append, List.map_append,
        List.map_append]
      exact (around fun _ => List.mem_append_left _).append
        ((h.values_claimed laws between found placed p).append
          (around fun _ => List.mem_append_right _))
  leaf := below_of_file h laws placed
  live x live _ := by
    rw [(relinks_claimed h laws found placed apart).contains, standIn]
    split
    next => exact contains_of_place? placed
    next => exact live
  top {x node} live unowned other := by
    have unplaced : a.occupant? shelf element key ≠ some x := by
      intro stands
      have owned := (h.owner?_occupant laws stands).1
      rw [owner?_of_find? live, unowned] at owned
      cases owned
    have same := map_blank_claimed exact a element id key x
    rw [live, Option.map_some, Option.map_eq_some_iff] at same
    obtain ⟨node', live', same⟩ := same
    have owner' : (a.claimed shelf element id key).owner? x = _ := owner?_claimed h laws placed
    rw [if_neg (Ne.symm other), if_neg unplaced, owner?_of_find? live, owner?_of_find? live',
      unowned] at owner'
    refine ⟨if_neg unplaced, node', live', owner', ?_⟩
    have documents : ∀ n : Node, n.document? = (n.blank shelf).document? := by
      rintro ⟨_, _, kind⟩
      cases kind <;> rfl
    rw [documents node', same, ← documents]

/-! ## Coming last -/

/-- A node comes last of the map that an element has it in. -/
structure ComesLast (a : Arena) (shelf : Shelf κ) (element id : NodeId) : Prop where
  /-- It comes after the element. -/
  afterElement : a.compareOrder element id = .ok (some .lt)
  /-- It comes after every other node of the map. -/
  afterOthers : ∀ x ∈ (a.shelfAt shelf element).values, x ≠ id →
    a.compareOrder x id = .ok (some .lt)
  /-- It comes before each child of the element and all that is below a child. -/
  beforeChildren : ∀ child ∈ a.childrenAt element, ∀ x, child ∈ x :: a.ancestors x →
    a.compareOrder id x = .ok (some .lt)

section Last

variable {others : List NodeId}

/-- What stands last in a map comes before all that is listed after the map. -/
theorem Sound.compareOrder_of_after (h : a.Sound) (between : shelf.Between before after)
    (last : (a.shelfAt shelf element).values = others ++ [id]) (member : y ∈ after a element)
    (above : y ∈ x :: a.ancestors x) : a.compareOrder id x = .ok (some .lt) := by
  have listed : ∀ z ∈ id :: after a element, a.Owns element z := by
    intro z member
    refine h.mem_below_iff.1 ?_
    rw [between.below, last]
    simp only [List.mem_cons, List.mem_append] at member ⊢
    tauto
  have ranks := h.pairwise_below element
  rw [between.below, last, List.pairwise_append, List.pairwise_append] at ranks
  exact h.compareOrder_of_ranksBefore
    (ranks.2.1.2.2 id (List.mem_append_right _ List.mem_cons_self) y member)
    (listed id List.mem_cons_self) (listed y (.tail _ member)) List.mem_cons_self above

theorem Sound.comesLast (h : a.Sound) (between : shelf.Between before after)
    (last : (a.shelfAt shelf element).values = others ++ [id]) : a.ComesLast shelf element id := by
  have listed : ∀ z ∈ others ++ [id], a.Owns element z := by
    intro z member
    refine h.mem_below_iff.1 ?_
    rw [between.below, last]
    exact List.mem_append_right _ (List.mem_append_left _ member)
  have owned := listed id (List.mem_append_right _ List.mem_cons_self)
  refine ⟨?afterElement, ?afterOthers, fun child member x above => ?beforeChildren⟩
  case afterElement =>
    obtain ⟨_, way⟩ := h.exists_descent (contains_iff.2 (h.exists_find?_owner owned))
    exact compareOrder_of_wayDown h.founded way (.here element) (.down owned (.here id)) rfl
  case afterOthers =>
    intro x member other
    have ranks := h.pairwise_below element
    rw [between.below, last, List.pairwise_append, List.pairwise_append,
      List.pairwise_append] at ranks
    rw [last] at member
    have earlier : x ∈ others := by simpa [other] using member
    exact h.compareOrder_of_ranksBefore (ranks.2.1.1.2.2 x earlier id List.mem_cons_self)
      (listed x member) owned List.mem_cons_self List.mem_cons_self
  case beforeChildren =>
    exact h.compareOrder_of_after between last (between.children a element member) above

end Last

/-- A node that replaces nothing and is new to the element stands last in the map. -/
theorem Consistent.values_claimed_of_fresh (h : a.Consistent) (laws : shelf.Lawful file)
    (found : a.element? element = some data) (placed : a.place? id = some (file key))
    (nothing : (a.occupant? shelf element key).filter (· ≠ id) = none)
    (new : a.parent id ≠ .ok (some element)) :
    ((a.claimed shelf element id key).shelfAt shelf element).values
      = (a.shelfAt shelf element).values ++ [id] := by
  rw [shelfAt_claimed h laws found placed, if_pos rfl]
  refine OrderedMap.values_insert_of_fresh id ?_
  refine Option.eq_none_iff_forall_ne_some.2 fun x stands => ?_
  have same : x = id := by simpa using Option.filter_eq_none_iff.1 nothing x stands
  exact new (parent_eq_some_iff.2 (h.owner?_occupant laws (same ▸ stands)).1)

/-! ## In place -/

/-- What giving a node to an element does to document order. -/
structure InPlace (a : Arena) (shelf : Shelf κ) (element id : NodeId) (old : Option NodeId)
    (a' : Arena) : Prop where
  /-- The other nodes stay in order. -/
  others : ∀ x y, a.contains x = true → a.contains y = true → x ≠ id → y ≠ id → old ≠ some x →
    old ≠ some y → a'.compareOrder x y = a.compareOrder x y
  /-- The new node compares with them as the old one did. -/
  replaced : ∀ x y, old = some x → a.contains y = true → y ≠ id → y ≠ x →
    a'.compareOrder id y = a.compareOrder x y
  /-- If there is no old node and the new one comes from elsewhere, it comes last. -/
  last : old = none → a.parent id ≠ .ok (some element) → a'.ComesLast shelf element id

theorem Sound.inPlace_claimed (h : a.Sound) (laws : shelf.Lawful file) (exact : shelf.Exact)
    (between : shelf.Between before after) (found : a.element? element = some data)
    (placed : a.place? id = some (file key)) (apart : id ≠ xmlDeclaration) :
    a.InPlace shelf element id ((a.occupant? shelf element key).filter (· ≠ id))
      (a.claimed shelf element id key) := by
  have sound := (Change.claim laws element id key found placed apart).sound h
  have renames := h.renames_claimed laws exact between found placed apart
  have stays : ∀ {x}, x ≠ id → (a.occupant? shelf element key).filter (· ≠ id) ≠ some x →
      standIn (a.occupant? shelf element key) id x = x := by
    intro x other unplaced
    refine if_neg fun stands => unplaced ?_
    rw [stands]
    simp [other]
  refine ⟨fun x y liveX liveY otherX otherY unplacedX unplacedY => ?others,
    fun x y stands live other apart' => ?replaced, fun nothing new => ?last⟩
  case others =>
    have order := renames.compareOrder_eq h sound liveX liveY otherX otherY
    rwa [stays otherX unplacedX, stays otherY unplacedY] at order
  case replaced =>
    have unplaced := stands.trans_ne (fun same => apart' (Option.some.inj same).symm)
    obtain ⟨stands, otherX⟩ := Option.filter_eq_some_iff.1 stands
    have liveX := contains_of_owner? (h.owner?_occupant laws stands).1
    have order := renames.compareOrder_eq h sound liveX live (by simpa using otherX) other
    rwa [stays other unplaced, standIn, if_pos stands] at order
  case last =>
    exact sound.comesLast between (h.values_claimed_of_fresh laws found placed nothing new)

/-- Attributes and declarations are given to elements in place. -/
structure ReplacementLaws (a : Arena) : Prop where
  /-- An attribute keeps document order. -/
  attributes : ∀ element id old a', Edit.setAttribute element id a = .ok old a' →
    a.InPlace .attributes element id old a'
  /-- So does a declaration. -/
  declarations : ∀ element id old a', Edit.setNamespace element id a = .ok old a' →
    a.InPlace .declarations element id old a'
  /-- A declaration that comes last of its map comes before the attributes. -/
  beforeAttributes : ∀ element id a', Edit.setNamespace element id a = .ok none a' →
    a.parent id ≠ .ok (some element) → ∀ x ∈ (a'.shelfAt .attributes element).values,
      a'.compareOrder id x = .ok (some .lt)

/-- In every reachable arena replacement cannot be seen in document order. -/
theorem Reachable.replacementLaws (reachable : Reachable config a) : a.ReplacementLaws where
  attributes element id old a' ran := by
    obtain ⟨data, name, found, placed, apart, rfl, rfl⟩ :=
      reachable.sound.claimed_of_setAttribute ran
    exact reachable.sound.inPlace_claimed Shelf.attributes_lawful Shelf.attributes_exact
      Shelf.attributes_between found placed apart
  declarations element id old a' ran := by
    obtain ⟨data, nsPrefix, found, placed, apart, rfl, rfl⟩ :=
      reachable.sound.claimed_of_setNamespace ran
    exact reachable.sound.inPlace_claimed Shelf.declarations_lawful Shelf.declarations_exact
      Shelf.declarations_between found placed apart
  beforeAttributes element id a' ran new x member := by
    obtain ⟨data, nsPrefix, found, placed, apart, nothing, rfl⟩ :=
      reachable.sound.claimed_of_setNamespace ran
    have sound := (Change.claim Shelf.declarations_lawful element id nsPrefix found placed
      apart).sound reachable.sound
    have last := reachable.sound.values_claimed_of_fresh Shelf.declarations_lawful found placed
      nothing.symm new
    exact sound.compareOrder_of_after Shelf.declarations_between last
      (List.mem_append_left _ member) List.mem_cons_self

/-- An attribute leaves one element and replaces an attribute of another, the first of two. -/
theorem replacementLaws_of_attribute :
    let a := ((Session.start {}).runAll
      [.createElement none "a", .createElement none "b", .addAttribute ⟨1⟩ none "k" "k" "u",
        .addAttribute ⟨2⟩ none "k" "k" "v", .addAttribute ⟨2⟩ none "l" "l" "w"]).arena
    ((Edit.setAttribute ⟨2⟩ ⟨3⟩).outcome a).1 = .ok (some ⟨4⟩) ∧ a.ReplacementLaws :=
  ⟨by decide +kernel, Reachable.replacementLaws (Reachable.runAll (s := .start {}) .empty _)⟩

end Arena

end XmlTree
