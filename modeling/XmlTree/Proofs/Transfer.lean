import XmlTree.Proofs.Independence.Alike
import XmlTree.Proofs.Reachable
import XmlTree.Proofs.Views

/-!
# Giving a node to an element

An element that is given an attribute or a declaration files it under the key that the node
asks for.  The key keeps its place in the map of the element, whoever stood there before,
and gets the last place if it is new (`rebind`).  The old owner loses the key.  Whoever
stood there before is live and has no owner.  `Transfers` says all this, and that every
slot is otherwise what it was.

The slots are got from owners and maps.  Two nodes that agree when owner and map are blanked
differ in these only (`Node.eq_of_blank`), and no step of `claim` touches anything else.

When the element has the node already, filing it again changes nothing (`claimed_of_filed`).
A node that is added is created and given to the element, and the giving cannot fail.
-/

namespace XmlTree

section Blank

variable {κ : Type} {shelf : Shelf κ}

/-! ## Blanked nodes -/

/-- Putting a map on a shelf changes the map and nothing else. -/
structure Shelf.Exact (shelf : Shelf κ) : Prop where
  /-- Nothing changes when the map is the one that is there. -/
  replace_view : ∀ data, shelf.replace (shelf.view data) data = data
  /-- The map that was there before does not matter. -/
  replace_replace : ∀ map map' data,
    shelf.replace map (shelf.replace map' data) = shelf.replace map data

theorem Shelf.attributes_exact : Shelf.attributes.Exact := ⟨fun _ => rfl, fun _ _ _ => rfl⟩

theorem Shelf.declarations_exact : Shelf.declarations.Exact := ⟨fun _ => rfl, fun _ _ _ => rfl⟩

/-- A node without its owner and with nothing on a shelf. -/
def Node.blank (shelf : Shelf κ) (node : Node) : Node :=
  (node.mapElement (shelf.replace ∅)).withParent none

/-- The map of a node on a shelf. -/
def Node.shelved (shelf : Shelf κ) (node : Node) : OrderedMap κ NodeId :=
  (node.element?.map shelf.view).getD ∅

theorem NodeKind.mapElement_mapElement (kind : NodeKind) (f g : ElementData → ElementData) :
    (kind.mapElement f).mapElement g = kind.mapElement fun data => g (f data) := by
  cases kind <;> rfl

theorem Node.mapElement_shelved (exact : shelf.Exact) (node : Node) :
    node.mapElement (shelf.replace (node.shelved shelf)) = node := by
  obtain ⟨id, parent, kind⟩ := node
  cases kind with
  | element data =>
    exact congrArg (fun data => Node.mk id parent (.element data)) (exact.replace_view data)
  | _ => rfl

/-- Of two nodes that agree when blanked, the one is the other with its own owner and its own
map. -/
theorem Node.eq_of_blank (exact : shelf.Exact) {node node' : Node}
    (same : node'.blank shelf = node.blank shelf) :
    node' = (node.mapElement (shelf.replace (node'.shelved shelf))).withParent node'.parent := by
  have blanked : ∀ (n : Node) (map : OrderedMap κ NodeId) (parent : Option NodeId),
      ((n.blank shelf).mapElement (shelf.replace map)).withParent parent
        = (n.mapElement (shelf.replace map)).withParent parent := by
    intro n map parent
    simp only [Node.blank, Node.mapElement, Node.withParent, NodeKind.mapElement_mapElement,
      exact.replace_replace]
  calc node'
    _ = (node'.mapElement (shelf.replace (node'.shelved shelf))).withParent node'.parent := by
      rw [node'.mapElement_shelved exact]
      rfl
    _ = (node.mapElement (shelf.replace (node'.shelved shelf))).withParent node'.parent := by
      rw [← blanked, same, blanked]

theorem Node.blank_replace (exact : shelf.Exact) (g : ElementData → OrderedMap κ NodeId)
    (node : Node) :
    (node.mapElement fun data => shelf.replace (g data) data).blank shelf = node.blank shelf := by
  simp only [Node.blank, Node.mapElement, Node.withParent, NodeKind.mapElement_mapElement,
    exact.replace_replace]

theorem Arena.shelfAt_of_find? {a : Arena} {x : NodeId} {node : Node}
    (found : a.find? x = some node) : a.shelfAt shelf x = node.shelved shelf := by
  rw [shelfAt, element?_of_find? found, Node.shelved]

end Blank

namespace Arena

variable {κ : Type} [DecidableEq κ] {shelf : Shelf κ} {file : κ → Place}
variable {a a' : Arena} {element id owner x : NodeId} {key : κ}
variable {data : ElementData} {config : Config}

/-! ## What is claimed, slot by slot -/

theorem size_claimed : (a.claimed shelf element id key).slots.size = a.slots.size :=
  claimed_of_updates (P := fun b => b.slots.size = a.slots.size) rfl
    (fun b x _ same => (size_update b x _).trans same)
    fun b x _ same => (size_update b x _).trans same

/-- No slot is touched but for owner and map. -/
theorem map_blank_claimed (exact : shelf.Exact) (a : Arena) (element id : NodeId) (key : κ)
    (x : NodeId) :
    ((a.claimed shelf element id key).find? x).map (Node.blank shelf)
      = (a.find? x).map (Node.blank shelf) :=
  claimed_of_updates
    (P := fun b => (b.find? x).map (Node.blank shelf) = (a.find? x).map (Node.blank shelf)) rfl
    (fun _ _ g same => (map_find?_update (fun node _ => node.blank_replace exact g) x).trans same)
    fun _ _ parent same =>
      (map_find?_update (f := Node.withParent parent) (fun _ _ => rfl) x).trans same

/-! ## What is claimed, map by map -/

theorem shelfAt_quitted (h : a.Consistent) (laws : shelf.Lawful file)
    (placed : a.place? id = some (file key)) (x : NodeId) :
    (a.quitted shelf element id key).shelfAt shelf x
      = if x ≠ element ∧ a.owner? id = some x then (a.shelfAt shelf x).erase key
        else a.shelfAt shelf x := by
  rcases h.quit_cases laws placed element with home | ⟨owner, data, owned, other, found⟩
  · rw [quitted_of_home home, if_neg]
    exact fun both => both.1 (home x both.2)
  · rw [quitted_of_other owned other]
    show Arena.shelfAt (a.update owner (Node.mapElement _)) shelf x = _
    rw [laws.shelfAt_mapElement found]
    split
    next same =>
      subst same
      rw [if_pos ⟨other, owned⟩, shelfAt_of_element? shelf found]
    next apart =>
      rw [if_neg fun both => apart (Option.some.inj (owned.symm.trans both.2))]

/-- The element gets the entry, another owner loses it, and no other map changes. -/
theorem shelfAt_claimed (h : a.Consistent) (laws : shelf.Lawful file)
    (found : a.element? element = some data) (placed : a.place? id = some (file key))
    (x : NodeId) : (a.claimed shelf element id key).shelfAt shelf x
      = if x = element then (a.shelfAt shelf x).insert key id
        else if a.owner? id = some x then (a.shelfAt shelf x).erase key
        else a.shelfAt shelf x := by
  have files : ((a.quitted shelf element id key).filed shelf element id key).shelfAt shelf x
      = if element = x then (shelf.view data).insert key id
        else (a.quitted shelf element id key).shelfAt shelf x := by
    rw [filed, shelfAt_withParent]
    exact laws.shelfAt_mapElement (element?_quitted.trans found)
      (fun data => (shelf.view data).insert key id) x
  have disowns : (a.claimed shelf element id key).shelfAt shelf x
      = ((a.quitted shelf element id key).filed shelf element id key).shelfAt shelf x := by
    rw [claimed]
    cases (a.occupant? shelf element key).filter (· ≠ id) with
    | none => rfl
    | some old => exact shelfAt_withParent shelf none x
  rw [disowns, files, shelfAt_quitted h laws placed]
  by_cases here : x = element
  · subst here
    rw [if_pos rfl, if_pos rfl, shelfAt_of_element? shelf found]
  · rw [if_neg (Ne.symm here), if_neg here]
    simp only [here, ne_eq, not_false_eq_true, true_and]

/-! ## Transfers -/

/-- An element has been given a node under a key, in place of an old one if there is one. -/
structure Transfers (a : Arena) (shelf : Shelf κ) (element id : NodeId) (key : κ)
    (old : Option NodeId) (a' : Arena) : Prop where
  /-- Every slot holds what it held, beside owner and map. -/
  slots : ∀ x, a'.find? x = (a.find? x).map fun node =>
    (node.mapElement (shelf.replace (a'.shelfAt shelf x))).withParent
      (if id = x then some element else if old = some x then none else node.parent)
  /-- The element has the node under the key, and the key where it was or at the end. -/
  filed : (a'.shelfAt shelf element).entries = rebind key id (a.shelfAt shelf element).entries
  /-- Another owner that the node had has lost the key, and nothing else. -/
  left : ∀ owner, a.owner? id = some owner → owner ≠ element →
    (a'.shelfAt shelf owner).entries
      = (a.shelfAt shelf owner).entries.filter fun entry => entry.1 ≠ key
  /-- All other maps are the same. -/
  kept : ∀ x, x ≠ element → a.owner? id ≠ some x → a'.shelfAt shelf x = a.shelfAt shelf x
  /-- The old node is what the element had under the key, unless that was the new one. -/
  replaced : old = ((a.shelfAt shelf element).get? key).filter (· ≠ id)
  /-- The new node belongs to the element. -/
  owner : a'.parent id = .ok (some element)
  /-- The old node is live and belongs to nobody. -/
  displaced : ∀ x, old = some x → a'.parent x = .ok none
  /-- There are as many slots. -/
  size : a'.slots.size = a.slots.size
  /-- As many nodes are counted. -/
  live : a'.live = a.live
  /-- The settings are the same. -/
  config : a'.config = a.config

theorem Consistent.transfers_claimed (h : a.Consistent) (laws : shelf.Lawful file)
    (exact : shelf.Exact) (found : a.element? element = some data)
    (placed : a.place? id = some (file key)) (apart : id ≠ xmlDeclaration) :
    a.Transfers shelf element id key ((a.occupant? shelf element key).filter (· ≠ id))
      (a.claimed shelf element id key) := by
  have relinks := relinks_claimed h laws found placed apart
  have maps := shelfAt_claimed h laws found placed
  have owners : ∀ x, (a.claimed shelf element id key).owner? x = if id = x then some element
      else if (a.occupant? shelf element key).filter (· ≠ id) = some x then none
      else a.owner? x := by
    intro x
    rw [owner?_claimed h laws placed]
    split
    next => rfl
    next other => simp [Option.filter_eq_some_iff, Ne.symm other]
  have parents : ∀ x, a.contains x = true →
      (a.claimed shelf element id key).parent x = .ok ((a.claimed shelf element id key).owner? x) :=
    fun x live => parent_eq_ok_of_contains ((relinks.contains x).trans live)
  refine ⟨?slots, ?filed, ?left, ?kept, rfl, ?owner, ?displaced, size_claimed, relinks.live,
    relinks.config⟩
  case slots =>
    intro x
    have same := map_blank_claimed exact a element id key x
    cases live : a.find? x with
    | none =>
      rw [live, Option.map_none, Option.map_eq_none_iff] at same
      rw [same, Option.map_none]
    | some node =>
      rw [live, Option.map_some] at same
      obtain ⟨node', live', same⟩ := Option.map_eq_some_iff.1 same
      have named := owners x
      rw [owner?_of_find? live', owner?_of_find? live] at named
      rw [live', Option.map_some, shelfAt_of_find? live', ← named, ← Node.eq_of_blank exact same]
  case filed => rw [maps, if_pos rfl, OrderedMap.entries_insert]
  case left =>
    intro owner owned other
    rw [maps, if_neg other, if_pos owned]
    rfl
  case kept =>
    intro x other unowned
    rw [maps, if_neg other, if_neg unowned]
  case owner =>
    rw [parents id (contains_of_place? placed), owners, if_pos rfl]
  case displaced =>
    intro x stands
    obtain ⟨stands', other⟩ := Option.filter_eq_some_iff.1 stands
    rw [parents x (contains_of_owner? (h.owner?_occupant laws stands').1), owners,
      if_neg (Ne.symm (by simpa using other)), if_pos stands]

/-! ## Filing once more -/

theorem update_eq_self {f : Node → Node} (same : ∀ node, a.find? x = some node → f node = node) :
    a.update x f = a := by
  have slots : a.slots.modify x.index (Option.map id) = a.slots := by
    refine Array.ext_getElem? fun i => ?_
    rw [Option.map_id, Array.getElem?_modify, Option.map_id, id, ite_self]
  rw [update_congr (g := id) same, update, slots]

theorem insert_of_shelved (exact : shelf.Exact) {node : Node}
    (stands : (node.shelved shelf).get? key = some id) : shelf.insert key id node = node := by
  obtain ⟨recorded, parent, kind⟩ := node
  cases kind with
  | element data =>
    have same : (shelf.view data).insert key id = shelf.view data :=
      OrderedMap.insert_eq_self stands
    have restored : shelf.replace ((shelf.view data).insert key id) data = data := by
      rw [same, exact.replace_view]
    exact congrArg (fun data => Node.mk recorded parent (.element data)) restored
  | _ => rfl

/-- A node that the element has under the key is filed as it is. -/
theorem claimed_of_filed (exact : shelf.Exact) (owned : a.owner? id = some element)
    (stands : a.occupant? shelf element key = some id) : a.claimed shelf element id key = a := by
  have quits : a.quitted shelf element id key = a :=
    quitted_of_home fun owner owned' => Option.some.inj (owned'.symm.trans owned)
  have files : a.update element (shelf.insert key id) = a := by
    refine update_eq_self fun node found => ?_
    rw [occupant?, shelfAt_of_find? found] at stands
    exact insert_of_shelved exact stands
  have owns : a.update id (Node.withParent (some element)) = a := by
    refine update_eq_self fun node found => ?_
    rw [owner?_of_find? found] at owned
    rw [Node.withParent, ← owned]
  have nobody : (some id).filter (· ≠ id) = none := by simp
  rw [claimed, quits, stands, nobody, disowned, filed, files, owns]

/-- After a claim the element has the node under the key. -/
theorem Consistent.claimed_claimed (h : a.Consistent) (laws : shelf.Lawful file)
    (exact : shelf.Exact) (found : a.element? element = some data)
    (placed : a.place? id = some (file key)) :
    ((a.claimed shelf element id key).occupant? shelf element key = some id) ∧
      (a.claimed shelf element id key).claimed shelf element id key
        = a.claimed shelf element id key := by
  have stands : (a.claimed shelf element id key).occupant? shelf element key = some id := by
    rw [occupant?, shelfAt_claimed h laws found placed, if_pos rfl, OrderedMap.get?_insert,
      if_pos rfl]
  have owned : (a.claimed shelf element id key).owner? id = some element := by
    rw [owner?_claimed h laws placed, if_pos rfl]
  exact ⟨stands, claimed_of_filed exact owned stands⟩

/-! ## The edits that give -/

/-- An edit gives a node to an element, and nothing is left to do for it afterwards. -/
def Gives (a : Arena) (shelf : Shelf κ) (element id : NodeId) (key : κ)
    (edit : Edit (Option NodeId)) : Prop :=
  ∃ old a', edit a = .ok old a' ∧ a.Transfers shelf element id key old a' ∧ edit a' = .ok none a'

/-- An edit that claims a node gives it. -/
theorem Consistent.gives (h : a.Consistent) (laws : shelf.Lawful file) (exact : shelf.Exact)
    (found : a.element? element = some data) (placed : a.place? id = some (file key))
    (apart : id ≠ xmlDeclaration) {edit : Edit (Option NodeId)}
    (claims : ∀ {b : Arena} {data : ElementData}, b.Consistent → b.element? element = some data →
      b.place? id = some (file key) → edit b = .ok ((b.occupant? shelf element key).filter (· ≠ id))
        (b.claimed shelf element id key)) :
    a.Gives shelf element id key edit := by
  refine ⟨_, _, claims h found placed, h.transfers_claimed laws exact found placed apart, ?_⟩
  have relinks := relinks_claimed h laws found placed apart
  obtain ⟨stands, again⟩ := h.claimed_claimed laws exact found placed
  obtain ⟨data', found'⟩ :
      ∃ data', (a.claimed shelf element id key).element? element = some data' :=
    exists_element?_of_lists laws (laws.lists_iff.2 stands)
  rw [claims (h.claimed laws found placed apart) found' ((relinks.place id).trans placed), again,
    stands]
  simp

theorem Consistent.setAttribute_claims (h : a.Consistent) (found : a.element? element = some data)
    {name : ExpandedName} (placed : a.place? id = some (.attr name)) :
    Edit.setAttribute element id a = .ok ((a.occupant? .attributes element name).filter (· ≠ id))
      (a.claimed .attributes element id name) := by
  obtain ⟨⟨_, _, kind⟩, live, place⟩ := exists_find?_of_place? placed
  cases kind with
  | attr entry =>
    cases place
    rw [setAttribute_eq h, element_eq_ok_iff.2 found, attributeData_eq_ok_iff.2 ⟨_, live, rfl⟩]
  | _ => cases place

theorem Consistent.setNamespace_claims (h : a.Consistent) (apart : id ≠ xmlDeclaration)
    (found : a.element? element = some data) {nsPrefix : Option String}
    (placed : a.place? id = some (.declaration nsPrefix)) : Edit.setNamespace element id a
      = .ok ((a.occupant? .declarations element nsPrefix).filter (· ≠ id))
        (a.claimed .declarations element id nsPrefix) := by
  obtain ⟨⟨_, _, kind⟩, live, place⟩ := exists_find?_of_place? placed
  cases kind with
  | namespaceDecl entry =>
    cases place
    rw [setNamespace_eq h, if_neg apart, element_eq_ok_iff.2 found,
      namespaceData_eq_ok_iff.2 ⟨_, live, rfl⟩]
  | _ => cases place

/-! ## The edits that add -/

/-- An edit does what a creation and a gift do one after the other, and succeeds when there
is a free slot. -/
structure Adds (a : Arena) (create : Edit NodeId) (give : NodeId → Edit (Option NodeId))
    (edit : Edit NodeId) : Prop where
  /-- The edit is the two in turn. -/
  both : edit a = (do let id ← create; discard (give id); return id : Edit NodeId) a
  /-- It succeeds if there is room. -/
  succeeds : a.slots.size < slotLimit → ∃ id a', edit a = .ok id a'

/-- A gift that cannot fail is never taken back. -/
theorem adds_of_given {kind : NodeKind} {give : NodeId → Edit (Option NodeId)}
    {edit : Edit NodeId} {old : Option NodeId}
    (given : give a.nextId (a.push kind) = .ok old a')
    (runs : edit a = (do let id ← Edit.allocate kind; Edit.ownOrRelease id (give id)) a) :
    a.Adds (Edit.allocate kind) give edit := by
  rw [allocate_ownOrRelease_eq given] at runs
  constructor
  case both =>
    rw [runs]
    split
    next room =>
      have allocated : Edit.allocate kind a = .ok a.nextId (a.push kind) := if_pos room
      have discarded : discard (give a.nextId) (a.push kind) = .ok () a' := by
        show ((fun _ => ()) <$> give a.nextId) (a.push kind) = _
        rw [Edit.map_run, given]
      rw [Edit.bind_of_ok allocated, Edit.bind_of_ok discarded]
      rfl
    next full =>
      have refused : Edit.allocate kind a = .error (.full a.slots.size) a := if_neg full
      rw [Edit.bind_of_error refused]
  case succeeds =>
    intro room
    rw [runs, if_pos room]
    exact ⟨_, _, rfl⟩

/-! ## The laws of giving -/

/-- What the edits that give attributes and declarations to elements do. -/
structure TransferLaws (a : Arena) : Prop where
  /-- An attribute is given under its expanded name. -/
  attributes : ∀ element id data entry, a.element element = .ok data →
    a.attributeData id = .ok entry →
      a.Gives .attributes element id entry.expandedName (Edit.setAttribute element id)
  /-- A declaration other than the built-in one is given under its prefix. -/
  declarations : ∀ element id data entry, a.element element = .ok data →
    a.namespaceData id = .ok entry → id ≠ xmlDeclaration →
      a.Gives .declarations element id entry.nsPrefix (Edit.setNamespace element id)
  /-- An attribute is added by being created and given. -/
  newAttributes : ∀ element data namespaceUri qualifiedName localName value,
    a.element element = .ok data →
      a.Adds (Edit.createAttribute namespaceUri qualifiedName localName value)
        (Edit.setAttribute element)
        (Edit.addAttribute element namespaceUri qualifiedName localName value)
  /-- So is a declaration. -/
  newDeclarations : ∀ element data nsPrefix uri, a.element element = .ok data →
    a.Adds (Edit.createNamespace nsPrefix uri) (Edit.setNamespace element)
      (Edit.addNamespace element nsPrefix uri)

/-- In every reachable arena elements are given what they ask for, and nothing else changes. -/
theorem Reachable.transferLaws (reachable : Reachable config a) : a.TransferLaws where
  attributes element id data entry holds valued := by
    have h := reachable.sound.toConsistent
    exact h.gives Shelf.attributes_lawful Shelf.attributes_exact (element_eq_ok_iff.1 holds)
      (place?_of_attributeData valued) (h.ne_xmlDeclaration_of_attributeData valued)
      fun h found placed => h.setAttribute_claims found placed
  declarations element id data entry holds valued apart :=
    reachable.sound.toConsistent.gives Shelf.declarations_lawful Shelf.declarations_exact
      (element_eq_ok_iff.1 holds) (place?_of_namespaceData valued) apart
      fun h found placed => h.setNamespace_claims apart found placed
  newAttributes element data namespaceUri qualifiedName localName value holds := by
    have h := reachable.sound.toConsistent.push
      (.attr ⟨namespaceUri, localName, qualifiedName, value⟩) rfl
    refine adds_of_given (h.setAttribute_claims (element_eq_ok_iff.1 (element_push holds _))
      (place?_nextId_push a _)) ?_
    rw [Edit.addAttribute, Edit.discard_query_bind, holds]
    rfl
  newDeclarations element data nsPrefix uri holds := by
    have h := reachable.sound.toConsistent
    refine adds_of_given ((h.push (.namespaceDecl ⟨nsPrefix, uri⟩) rfl).setNamespace_claims
      (nextId_ne_of_find? h.builtIn) (element_eq_ok_iff.1 (element_push holds _))
      (place?_nextId_push a _)) ?_
    rw [Edit.addNamespace, Edit.discard_query_bind, holds]
    rfl

/-- An element with an attribute, and another one with an attribute of the same name and one
more. -/
def namesakes : Arena :=
  ((Session.start {}).runAll
    [.createElement none "a", .createElement none "b", .addAttribute ⟨1⟩ none "k" "k" "u",
      .addAttribute ⟨2⟩ none "k" "k" "v", .addAttribute ⟨2⟩ none "l" "l" "w"]).arena

/-- The laws where an attribute leaves one element and replaces an attribute of another, the
first of two. -/
theorem transferLaws_of_replacement :
    ((Edit.setAttribute ⟨2⟩ ⟨3⟩).outcome namesakes).1 = .ok (some ⟨4⟩) ∧ namesakes.TransferLaws :=
  ⟨by decide +kernel, Reachable.transferLaws (Reachable.runAll (s := .start {}) .empty _)⟩

-- The one attribute stands where the other stood.
example : (((Edit.setAttribute ⟨2⟩ ⟨3⟩).outcome namesakes).2.shelfAt .attributes ⟨2⟩).values
    = [⟨3⟩, ⟨5⟩] := by
  decide +kernel

end Arena

end XmlTree
