import XmlTree.Proofs.Changes

/-!
# Reachable arenas

An arena is reachable when commands lead to it from an empty one.  The commands may
fail on the way, and the documents may have any numbers.  Reachable arenas are sound
(`Reachable.sound`).

`OwnershipLaws` spells out, slot by slot and list by list, what that says about
owners.
-/

namespace XmlTree.Arena

variable {a : Arena} {config : Config}

/-- The arenas that commands make out of the empty arena. -/
inductive Reachable (config : Config) : Arena → Prop
  /-- The start. -/
  | empty : Reachable config (.empty config)
  /-- Another command, successful or not. -/
  | command {a : Arena} (documentNumber : Nat) (command : Command) (before : Reachable config a) :
      Reachable config ((command.edit documentNumber).outcome a).2

/-! ## Soundness -/

theorem find?_empty (config : Config) (id : NodeId) : (Arena.empty config).find? id
    = if id = xmlDeclaration then some xmlDeclarationNode else none := by
  obtain ⟨index⟩ := id
  cases index with
  | zero => rfl
  | succ index => rfl

theorem not_lists_empty (config : Config) (owner : NodeId) (place : Place) (id : NodeId) :
    ¬ (Arena.empty config).Lists owner place id := by
  intro listed
  obtain ⟨node, found⟩ := exists_find?_of_lists listed
  have owned := (exists_lists_iff found).1 ⟨place, listed⟩
  rw [find?_empty] at found
  split at found
  next => cases found; cases owned
  next => cases found

theorem owner?_empty (config : Config) (id : NodeId) : (Arena.empty config).owner? id = none := by
  rw [owner?, find?_empty]
  split <;> rfl

theorem sound_empty (config : Config) : (Arena.empty config).Sound where
  builtIn := rfl
  recorded {id node} found := by
    rw [find?_empty] at found
    split at found
    next same => cases found; exact same.symm
    next => cases found
  counted := rfl
  distinct p := by
    rw [childrenAt, find?_empty]
    split
    · exact List.nodup_nil
    · exact List.nodup_nil
  settled id := .of_unowned (owner?_empty config id) fun owner place =>
    not_lists_empty config owner place id
  founded := by
    refine ⟨fun id => ⟨id, fun owner owned => ?_⟩⟩
    rw [Owns, owner?_empty] at owned
    cases owned

theorem Reachable.sound (reachable : Reachable config a) : a.Sound := by
  induction reachable with
  | empty => exact sound_empty config
  | command documentNumber command _ ih => exact ih.command documentNumber command

/-- What the empty arena has and every step on a sound arena keeps is true of every
reachable arena. -/
theorem Reachable.invariant {P : Arena → Prop} (start : P (.empty config))
    (step : ∀ {a a' : Arena}, a.Sound → a.Change a' → P a → P a')
    (reachable : Reachable config a) : P a := by
  induction reachable with
  | empty => exact start
  | command documentNumber command before ih =>
    have sound := before.sound
    exact sound.invariant step (command.steps sound.toConsistent documentNumber).changes ih

theorem Reachable.config_eq (reachable : Reachable config a) : a.config = config :=
  reachable.invariant (P := fun a => a.config = config) rfl fun sound change same =>
    (change.config_eq sound.toConsistent).trans same

/-- The arena of a session stays reachable while it runs commands. -/
theorem Reachable.runAll {s : Session} (reachable : Reachable config s.arena)
    (commands : List Command) : Reachable config (s.runAll commands).arena := by
  induction commands generalizing s with
  | nil => exact reachable
  | cons command rest ih => exact ih (.command s.nextDocument command reachable)

/-! ## The laws of ownership -/

/-- What an arena records about owners, list by list and node by node. -/
structure OwnershipLaws (a : Arena) : Prop where
  /-- Slot 0 holds the built-in declaration, which has no owner. -/
  builtIn : a.slots[0]? = some (some ⟨⟨0⟩, none, .namespaceDecl ⟨some xmlPrefix, xmlNamespace⟩⟩)
  /-- A node records the number of its slot. -/
  recorded : ∀ (i : Nat) (node : Node), a.slots[i]? = some (some node) → node.id = ⟨i⟩
  /-- The count is the number of nodes in the other slots. -/
  counted : a.live = (a.slots.toList.drop 1).countP Option.isSome
  /-- A child is listed once, is of a type that may be a child, and names its parent. -/
  children : ∀ (parent : NodeId) (node : Node), a.find? parent = some node →
    node.children.Nodup ∧ ∀ id ∈ node.children, ∃ child,
      a.find? id = some child ∧ child.type.isChild = true ∧ child.parent = some parent
  /-- An attribute is filed once and under its own name, and names its element. -/
  attributes : ∀ (element : NodeId) (node : Node) (data : ElementData),
    a.find? element = some node → node.kind = .element data →
    data.attributes.keys.Nodup ∧ ∀ key id, (key, id) ∈ data.attributes.entries → ∃ entry,
      a.find? id = some ⟨id, some element, .attr entry⟩ ∧ entry.expandedName = key
  /-- A declaration is filed once and under its own prefix, and names its element.  The
  built-in one is never filed. -/
  declarations : ∀ (element : NodeId) (node : Node) (data : ElementData),
    a.find? element = some node → node.kind = .element data →
    data.declarations.keys.Nodup ∧ ∀ key id, (key, id) ∈ data.declarations.entries →
      id ≠ ⟨0⟩ ∧ ∃ entry,
        a.find? id = some ⟨id, some element, .namespaceDecl entry⟩ ∧ entry.nsPrefix = key
  /-- A named owner is live.  It lists the node in the place that the node asks for, and
  nowhere else is the node listed. -/
  owned : ∀ (id : NodeId) (node : Node) (owner : NodeId), a.find? id = some node →
    node.parent = some owner → a.contains owner = true ∧ ∃ place, node.kind.place? = some place ∧
      ∀ owner' place', a.Lists owner' place' id ↔ owner' = owner ∧ place' = place

theorem find?_eq_some_iff {id : NodeId} {node : Node} :
    a.find? id = some node ↔ a.slots[id.index]? = some (some node) := by
  rw [find?, Option.join_eq_some_iff]

theorem Consistent.live_eq (h : a.Consistent) :
    a.live = (a.slots.toList.drop 1).countP Option.isSome := by
  have builtIn := find?_eq_some_iff.1 h.builtIn
  have counted := h.counted
  rw [occupied, ← Array.countP_toList] at counted
  rw [← Array.getElem?_toList] at builtIn
  cases slots : a.slots.toList with
  | nil =>
    rw [slots] at builtIn
    cases builtIn
  | cons first rest =>
    rw [slots] at builtIn counted
    obtain rfl := Option.some.inj builtIn
    rw [List.countP_cons_of_pos rfl] at counted
    exact (Nat.succ.inj counted).symm

/-- In every reachable arena owners and lists agree, node by node. -/
theorem Reachable.ownershipLaws (reachable : Reachable config a) : a.OwnershipLaws where
  builtIn := find?_eq_some_iff.1 reachable.sound.builtIn
  recorded i node filled := reachable.sound.recorded (find?_eq_some_iff.2 filled)
  counted := reachable.sound.live_eq
  children parent node found := by
    have h := reachable.sound.toConsistent
    rw [← childrenAt_of_find? found]
    refine ⟨h.distinct parent, fun id member => ?_⟩
    have listed : a.Lists parent .child id := member
    obtain ⟨kind, live, place⟩ := h.find?_of_lists listed
    exact ⟨_, live, NodeKind.place?_eq_child_iff.1 place, rfl⟩
  attributes element node data found kind := by
    refine ⟨data.attributes.nodup, fun key id entry => ?_⟩
    have holds : a.element? element = some data := by
      rw [element?_of_find? found, Node.element?, kind]
    have listed : a.Lists element (.attr key) id := by
      rw [Lists, shelfAt_of_element? _ holds]
      exact OrderedMap.mem_entries_iff.1 entry
    obtain ⟨filed, live, place⟩ := reachable.sound.find?_of_lists listed
    cases filed with
    | attr entry => exact ⟨entry, live, Place.attr.inj (Option.some.inj place)⟩
    | _ => cases place
  declarations element node data found kind := by
    refine ⟨data.declarations.nodup, fun key id entry => ?_⟩
    have holds : a.element? element = some data := by
      rw [element?_of_find? found, Node.element?, kind]
    have listed : a.Lists element (.declaration key) id := by
      rw [Lists, shelfAt_of_element? _ holds]
      exact OrderedMap.mem_entries_iff.1 entry
    have owned := (reachable.sound.lists_iff.1 listed).1
    obtain ⟨filed, live, place⟩ := reachable.sound.find?_of_lists listed
    refine ⟨reachable.sound.ne_xmlDeclaration_of_owner? owned, ?_⟩
    cases filed with
    | namespaceDecl entry => exact ⟨entry, live, Place.declaration.inj (Option.some.inj place)⟩
    | _ => cases place
  owned id node owner found owned := by
    have h := reachable.sound.toConsistent
    have owns := (owner?_of_find? found).trans owned
    obtain ⟨place, placed⟩ := h.exists_place?_of_owner? owns
    refine ⟨contains_iff.2 (h.exists_find?_owner owns), place, ?_, fun owner' place' => ?_⟩
    · rw [← place?_of_find? found, placed]
    · rw [h.lists_iff, owns, placed, Option.some_inj, Option.some_inj, eq_comm,
        eq_comm (a := place)]

/-- The laws hold after moves, replacements and refusals. -/
theorem ownershipLaws_of_moves : ((Session.start {}).runAll
    [.createDocument none, .createElement none "a", .appendChild ⟨1⟩ ⟨2⟩, .createElement none "b",
      .appendChild ⟨2⟩ ⟨3⟩, .addAttribute ⟨2⟩ none "k" "k" "v", .addAttribute ⟨3⟩ none "k" "k" "w",
      .setAttribute ⟨2⟩ ⟨5⟩, .addNamespace ⟨3⟩ none "u", .removeChild ⟨3⟩ ⟨2⟩, .appendChild ⟨1⟩ ⟨3⟩,
      .release ⟨4⟩]).arena.OwnershipLaws :=
  Reachable.ownershipLaws (Reachable.runAll (s := .start {}) .empty _)

end XmlTree.Arena
