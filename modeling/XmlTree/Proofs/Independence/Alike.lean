import Mathlib.Data.Set.Basic
import XmlTree.Proofs.Ownership.Children
import XmlTree.Proofs.Ownership.Release

/-!
# Arenas that look alike inside a region

A region is a set of identities that the nodes in it do not lead out of: their owners are
in it, and so is everything they own.  Two arenas look alike inside a region when they
have the same nodes there (`Alike`).  Outside they may have nothing in common but the
number of slots and the settings.

A question about an identity in the region is answered from nodes in the region only, so
the two arenas answer alike.  This goes for the climb and for the measuring of a tree too.

A change inside the region leaves the two arenas alike, and it spares all that is outside
(`Spares`).  It makes no node either, and of every node it spares what no edit changes, the
`NodeKind.core`.
-/

namespace XmlTree

/-! ## What no edit changes -/

/-- What stays of a payload for as long as the node lives: its type, the names it was made
with, the content of a text, a comment or a declaration, and the place of a document in the
order of creation. -/
def NodeKind.core : NodeKind → NodeKind
  | document data => .document { data with uri := none, children := [] }
  | element data => .element ⟨data.namespaceUri, data.localName, "", ∅, ∅, []⟩
  | attr data => .attr { data with value := "" }
  | kind => kind

theorem NodeKind.core_mapChildren (g : List NodeId → List NodeId) (kind : NodeKind) :
    (kind.mapChildren g).core = kind.core := by
  cases kind <;> rfl

theorem NodeKind.core_mapElement {g : ElementData → ElementData}
    (named : ∀ data, (g data).expandedName = data.expandedName) (kind : NodeKind) :
    (kind.mapElement g).core = kind.core := by
  cases kind with
  | element data =>
    obtain ⟨sameUri, sameName⟩ := ExpandedName.mk.inj (named data)
    rw [mapElement, core, core, sameUri, sameName]
  | _ => rfl

/-! ## Regions -/

/-- Whether a node refers to nothing outside a region. -/
structure Node.Within (region : Set NodeId) (node : Node) : Prop where
  /-- Its owner is inside. -/
  parent : ∀ owner, node.parent = some owner → owner ∈ region
  /-- What it owns is inside. -/
  owned : ∀ id ∈ node.kind.owned, id ∈ region

namespace Arena

variable {a b c : Arena} {region : Set NodeId} {id owner child : NodeId} {node : Node}
variable {f : Node → Node} {work : List NodeId}

/-- Two arenas have the same nodes inside a region, and these do not lead out of it. -/
structure Alike (region : Set NodeId) (a b : Arena) : Prop where
  /-- There are as many slots. -/
  size : b.slots.size = a.slots.size
  /-- The settings are the same. -/
  config : b.config = a.config
  /-- The nodes inside are the same. -/
  find? : ∀ id ∈ region, b.find? id = a.find? id
  /-- They refer to nothing outside. -/
  closed : ∀ id ∈ region, ∀ node, a.find? id = some node → node.Within region

/-- The second arena has come from the first by a change inside a region that makes no
node and leaves the core of every node alone. -/
structure Spares (region : Set NodeId) (a a' : Arena) : Prop where
  /-- There are as many slots. -/
  size : a'.slots.size = a.slots.size
  /-- The settings are the same. -/
  config : a'.config = a.config
  /-- The nodes outside are the same. -/
  outside : ∀ id, id ∉ region → a'.find? id = a.find? id
  /-- A live node was live before, with the same core. -/
  core : ∀ id node', a'.find? id = some node' →
    ∃ node, a.find? id = some node ∧ node'.kind.core = node.kind.core

theorem Alike.refl_left (alike : a.Alike region b) : a.Alike region a where
  size := rfl
  config := rfl
  find? _ _ := rfl
  closed := alike.closed

theorem Alike.refl_right (alike : a.Alike region b) : b.Alike region b where
  size := rfl
  config := rfl
  find? _ _ := rfl
  closed id inside node found :=
    alike.closed id inside node ((alike.find? id inside).symm.trans found)

theorem Spares.refl (region : Set NodeId) (a : Arena) : a.Spares region a where
  size := rfl
  config := rfl
  outside _ _ := rfl
  core _ node found := ⟨node, found, rfl⟩

theorem Spares.trans (first : a.Spares region b) (second : b.Spares region c) :
    a.Spares region c where
  size := second.size.trans first.size
  config := second.config.trans first.config
  outside id out := (second.outside id out).trans (first.outside id out)
  core id node'' found'' := by
    obtain ⟨node', found', same'⟩ := second.core id node'' found''
    obtain ⟨node, found, same⟩ := first.core id node' found'
    exact ⟨node, found, same'.trans same⟩

/-- An empty slot is still empty. -/
theorem Spares.missing (spares : a.Spares region b) (missing : a.find? id = none) :
    b.find? id = none := by
  cases found : b.find? id with
  | none => rfl
  | some node' =>
    obtain ⟨node, live, _⟩ := spares.core id node' found
    cases missing.symm.trans live

/-! ## Questions -/

namespace Alike

section Node

variable (alike : a.Alike region b) (inside : id ∈ region)

include alike inside

theorem contains : b.contains id = a.contains id := by
  rw [Arena.contains, Arena.contains, alike.find? id inside]

theorem get : b.get id = a.get id := by rw [Arena.get, Arena.get, alike.find? id inside]

theorem nodeType : b.nodeType id = a.nodeType id := by
  rw [Arena.nodeType, Arena.nodeType, alike.get inside]

theorem parent : b.parent id = a.parent id := by
  rw [Arena.parent, Arena.parent, alike.get inside]

theorem children : b.children id = a.children id := by
  rw [Arena.children, Arena.children, alike.get inside]

theorem containerChildren : b.containerChildren id = a.containerChildren id := by
  rw [Arena.containerChildren, Arena.containerChildren, alike.get inside]

theorem element : b.element id = a.element id := by
  rw [Arena.element, Arena.element, alike.get inside]

theorem attributeData : b.attributeData id = a.attributeData id := by
  rw [Arena.attributeData, Arena.attributeData, alike.get inside]

theorem namespaceData : b.namespaceData id = a.namespaceData id := by
  rw [Arena.namespaceData, Arena.namespaceData, alike.get inside]

theorem document : b.document id = a.document id := by
  rw [Arena.document, Arena.document, alike.get inside]

theorem lookup {κ : Type} [DecidableEq κ] (shelf : Shelf κ) (key : κ) :
    shelf.lookup b id key = shelf.lookup a id key := by
  rw [Shelf.lookup, Shelf.lookup, alike.element inside]

end Node

/-! ## What the answers lead to -/

theorem mem_of_parent (alike : a.Alike region b) (inside : id ∈ region)
    (answer : a.parent id = .ok (some owner)) : owner ∈ region := by
  obtain ⟨node, live, owned⟩ := bind_eq_ok_iff.1 answer
  exact (alike.closed id inside node (get_eq_ok_iff.1 live)).parent owner
    (pure_eq_ok_iff.1 owned)

theorem mem_of_children (alike : a.Alike region b) (inside : id ∈ region) {ids : List NodeId}
    (answer : a.children id = .ok ids) : ∀ child ∈ ids, child ∈ region := by
  obtain ⟨node, live, listed⟩ := bind_eq_ok_iff.1 answer
  obtain rfl := pure_eq_ok_iff.1 listed
  have found := get_eq_ok_iff.1 live
  intro child member
  refine (alike.closed id inside node found).owned child ((exists_lists_iff found).1 ⟨.child, ?_⟩)
  rwa [Lists, childrenAt_of_find? found]

theorem mem_of_lookup (alike : a.Alike region b) (inside : id ∈ region) {κ : Type} [DecidableEq κ]
    {shelf : Shelf κ} {file : κ → Place} (laws : shelf.Lawful file) {key : κ}
    (answer : shelf.lookup a id key = .ok (some child)) : child ∈ region := by
  obtain ⟨data, holds, entry⟩ := bind_eq_ok_iff.1 answer
  have element := element_eq_ok_iff.1 holds
  obtain ⟨node, found, _⟩ := exists_find?_of_element? element
  refine (alike.closed id inside node found).owned child ((exists_lists_iff found).1 ⟨file key, ?_⟩)
  rw [laws.lists_iff, shelfAt_of_element? shelf element]
  exact pure_eq_ok_iff.1 entry

/-! ## Climbing and measuring -/

theorem lineageWithin (alike : a.Alike region b) (fuel : Nat) (inside : id ∈ region) :
    b.lineageWithin fuel id = a.lineageWithin fuel id := by
  induction fuel generalizing id with
  | zero => rfl
  | succ fuel ih =>
    rw [Arena.lineageWithin, Arena.lineageWithin, alike.find? id inside]
    cases found : a.find? id with
    | none => rfl
    | some node =>
      cases owned : node.parent with
      | none => simp only [owned]
      | some owner =>
        have ownerInside := (alike.closed id inside node found).parent owner owned
        simp only [owned, ih ownerInside]

theorem lineage (alike : a.Alike region b) (inside : id ∈ region) :
    b.lineage id = a.lineage id := by
  rw [Arena.lineage, Arena.lineage, alike.size, alike.lineageWithin _ inside]

theorem heightWithin (alike : a.Alike region b) (fuel : Nat) (inside : id ∈ region) :
    b.heightWithin fuel id = a.heightWithin fuel id := by
  induction fuel generalizing id with
  | zero => rfl
  | succ fuel ih =>
    rw [Arena.heightWithin, Arena.heightWithin, alike.children inside]
    cases listed : a.children id with
    | error e => rfl
    | ok ids =>
      have same : ids.reverse.mapM (b.heightWithin fuel) = ids.reverse.mapM (a.heightWithin fuel) :=
        mapM_congr fun child member =>
          ih (alike.mem_of_children inside listed child (List.mem_reverse.1 member))
      exact congrArg (Functor.map _) same

theorem height (alike : a.Alike region b) (inside : id ∈ region) : b.height id = a.height id := by
  rw [Arena.height, Arena.height, alike.size, alike.heightWithin _ inside]

theorem checkInsertable (alike : a.Alike region b) (insideP : owner ∈ region)
    (insideC : child ∈ region) : b.checkInsertable owner child = a.checkInsertable owner child := by
  rw [Arena.checkInsertable, Arena.checkInsertable, alike.nodeType insideP, alike.nodeType insideC,
    alike.lineage insideP, alike.height insideC, alike.config]

end Alike

/-! ## Changes of one slot -/

theorem size_update (a : Arena) (id : NodeId) (f : Node → Node) :
    (a.update id f).slots.size = a.slots.size := Array.size_modify

theorem size_vacate (a : Arena) (id : NodeId) : (a.vacate id).slots.size = a.slots.size :=
  Array.size_setIfInBounds

theorem Alike.update (alike : a.Alike region b)
    (keeps : ∀ node, a.find? id = some node → node.Within region → (f node).Within region) :
    (a.update id f).Alike region (b.update id f) where
  size := by rw [size_update, size_update, alike.size]
  config := alike.config
  find? x inside := by rw [find?_update, find?_update, alike.find? x inside]
  closed x inside node found := by
    rw [find?_update] at found
    split at found
    next here =>
      subst here
      obtain ⟨before, live, rfl⟩ := Option.map_eq_some_iff.1 found
      exact keeps before live (alike.closed id inside before live)
    next elsewhere => exact alike.closed x inside node found

theorem spares_update (inside : id ∈ region)
    (keeps : ∀ node, a.find? id = some node → (f node).kind.core = node.kind.core) :
    a.Spares region (a.update id f) where
  size := size_update a id _
  config := rfl
  outside x out := by
    have apart : id ≠ x := fun same => out (same ▸ inside)
    rw [find?_update, if_neg apart]
  core x node' found := by
    rw [find?_update] at found
    split at found
    next here =>
      subst here
      obtain ⟨node, live, rfl⟩ := Option.map_eq_some_iff.1 found
      exact ⟨node, live, keeps node live⟩
    next elsewhere => exact ⟨node', found, rfl⟩

theorem Alike.vacate (alike : a.Alike region b) (id : NodeId) :
    (a.vacate id).Alike region (b.vacate id) where
  size := by rw [size_vacate, size_vacate, alike.size]
  config := alike.config
  find? x inside := by rw [find?_vacate, find?_vacate, alike.find? x inside]
  closed x inside node found := by
    rw [find?_vacate] at found
    split at found
    next here => cases found
    next elsewhere => exact alike.closed x inside node found

theorem spares_vacate (inside : id ∈ region) : a.Spares region (a.vacate id) where
  size := size_vacate a id
  config := rfl
  outside x out := by
    have apart : id ≠ x := fun same => out (same ▸ inside)
    rw [find?_vacate, if_neg apart]
  core x node found := by
    rw [find?_vacate] at found
    split at found
    next here => cases found
    next elsewhere => exact ⟨node, found, rfl⟩

/-! ## Sweeping -/

theorem sweep_of_missing (missing : a.find? id = none) (rest : List NodeId) :
    a.sweep (id :: rest) = a.sweep rest := by
  rw [Arena.sweep]
  split
  next => rfl
  next node found => cases missing.symm.trans found

theorem sweep_of_find? (found : a.find? id = some node) (rest : List NodeId) :
    a.sweep (id :: rest) = (a.vacate id).sweep (node.kind.owned ++ rest) := by
  rw [Arena.sweep]
  split
  next missing => cases missing.symm.trans found
  next node' found' =>
    obtain rfl := Option.some.inj (found.symm.trans found')
    rfl

/-- A sweep follows what the nodes own, so it stays inside a region. -/
theorem Alike.sweep (alike : a.Alike region b) (inside : ∀ id ∈ work, id ∈ region) :
    (a.sweep work).Alike region (b.sweep work) ∧ a.Spares region (a.sweep work) := by
  fun_induction Arena.sweep a work generalizing b with
  | case1 a =>
    rw [Arena.sweep]
    exact ⟨alike, .refl region a⟩
  | case2 a id rest missing ih =>
    have missing' : b.find? id = none := by
      rw [alike.find? id (inside id List.mem_cons_self), missing]
    rw [sweep_of_missing missing']
    exact ih alike fun x later => inside x (.tail _ later)
  | case3 a id rest node found ih =>
    have here := inside id List.mem_cons_self
    have found' : b.find? id = some node := by rw [alike.find? id here, found]
    have within : ∀ x ∈ node.kind.owned ++ rest, x ∈ region := by
      intro x member
      rcases List.mem_append.1 member with owned | later
      · exact (alike.closed id here node found).owned x owned
      · exact inside x (.tail _ later)
    obtain ⟨swept, spared⟩ := ih (alike.vacate id) within
    rw [sweep_of_find? found']
    exact ⟨swept, (spares_vacate here).trans spared⟩

end Arena

/-! ## Nodes that stay within a region -/

section Within

variable {region : Set NodeId} {node : Node}

theorem Node.Within.withParent (within : node.Within region) {parent : Option NodeId}
    (inside : ∀ owner, parent = some owner → owner ∈ region) :
    (node.withParent parent).Within region where
  parent := inside
  owned := within.owned

theorem Node.Within.mapChildren (within : node.Within region) {g : List NodeId → List NodeId}
    (inside : ∀ ids : List NodeId, (∀ id ∈ ids, id ∈ region) → ∀ id ∈ g ids, id ∈ region) :
    (node.mapChildren g).Within region where
  parent := within.parent
  owned := by
    have owned := within.owned
    obtain ⟨_, _, kind⟩ := node
    cases kind with
    | document data => exact inside data.children owned
    | element data =>
      intro id listed
      rcases List.mem_append.1 listed with filed | child
      · exact owned id (List.mem_append_left _ filed)
      · exact inside data.children (fun x member => owned x (List.mem_append_right _ member))
          id child
    | _ => exact owned

theorem Node.Within.qualifiedName (within : node.Within region) (qualifiedName : String) :
    (node.mapElement fun data => { data with qualifiedName }).Within region where
  parent := within.parent
  owned := by
    have owned := within.owned
    obtain ⟨_, _, kind⟩ := node
    cases kind <;> exact owned

theorem Node.mapElement_of_not_element? (other : node.element? = none)
    (g : ElementData → ElementData) : node.mapElement g = node := by
  obtain ⟨_, _, kind⟩ := node
  cases kind with
  | element data => cases other
  | _ => rfl

end Within

section Shelf

variable {κ : Type} [DecidableEq κ] {shelf : Shelf κ} {file : κ → Place}
variable {a : Arena} {region : Set NodeId} {element id : NodeId} {node : Node}

theorem Shelf.Lawful.within_insert (laws : shelf.Lawful file) (found : a.find? element = some node)
    (within : node.Within region) (inside : id ∈ region) (key : κ) :
    (shelf.insert key id node).Within region where
  parent := within.parent
  owned x owned := by
    have found' : (a.update element (shelf.insert key id)).find? element
        = some (shelf.insert key id node) := by
      rw [Arena.find?_update, if_pos rfl, found, Option.map_some]
    cases holds : node.element? with
    | none =>
      rw [Shelf.insert, Node.mapElement_of_not_element? holds] at owned
      exact within.owned x owned
    | some data =>
      obtain ⟨place, listed⟩ := (Arena.exists_lists_iff found').2 owned
      rw [laws.lists_insert ((Arena.element?_of_find? found).trans holds)] at listed
      split at listed
      next new => exact listed ▸ inside
      next old => exact within.owned x ((Arena.exists_lists_iff found).1 ⟨place, listed⟩)

theorem Shelf.Lawful.within_erase (laws : shelf.Lawful file) (found : a.find? element = some node)
    (within : node.Within region) (key : κ) : (shelf.erase key node).Within region where
  parent := within.parent
  owned x owned := by
    have found' : (a.update element (shelf.erase key)).find? element
        = some (shelf.erase key node) := by
      rw [Arena.find?_update, if_pos rfl, found, Option.map_some]
    cases holds : node.element? with
    | none =>
      rw [Shelf.erase, Node.mapElement_of_not_element? holds] at owned
      exact within.owned x owned
    | some data =>
      obtain ⟨place, listed⟩ := (Arena.exists_lists_iff found').2 owned
      rw [laws.lists_erase ((Arena.element?_of_find? found).trans holds)] at listed
      exact within.owned x ((Arena.exists_lists_iff found).1 ⟨place, listed.2⟩)

end Shelf

end XmlTree
