import XmlTree.Proofs.Independence.Confined
import XmlTree.Proofs.Order.Ways
import XmlTree.Proofs.Reachable

/-!
# Commands that commute

Two commands that name nodes of different trees do not meet.  Each is confined to the
trees of the nodes it names (`Command.confined`, `Sound.alike_trees`), and two such
regions have nothing in common but empty slots, which no command fills again.  So the
second command finds its trees as they were before the first one, whichever comes first
(`outcome_commute`).

A sound arena is determined by its nodes, its settings and the number of its slots
(`Consistent.eq_of_find?`), since the count of live nodes follows from them.  So the two
orders end in one and the same arena.
-/

namespace XmlTree

namespace Arena

variable {a b : Arena} {config : Config} {region region' : Set NodeId} {ids ids' : List NodeId}
variable {id owner root x y : NodeId}

/-! ## The trees of some nodes -/

/-- The given identities and all nodes of their trees. -/
def trees (a : Arena) (ids : List NodeId) : Set NodeId :=
  {x | ∃ id ∈ ids, x = id ∨ ∃ root, a.root id = .ok root ∧ a.root x = .ok root}

/-- A node has the root of its owner. -/
theorem root_of_owns (founded : a.Founded) (owned : a.Owns owner x) : a.root x = a.root owner := by
  obtain ⟨node, found, parent⟩ := exists_find?_of_owner? owned
  rw [Arena.root, Arena.root, lineage_of_owner founded found parent, Lineage.summit]
  cases (a.lineage owner).summit <;> rfl

/-- A live node in the trees of some nodes has the root of one of them. -/
theorem exists_root_eq_of_mem_trees (live : a.contains x = true) (member : x ∈ a.trees ids) :
    ∃ id ∈ ids, a.contains id = true ∧ a.root id = a.root x := by
  obtain ⟨id, named, rfl | ⟨root, known, same⟩⟩ := member
  · exact ⟨x, named, live, rfl⟩
  · exact ⟨id, named, contains_of_root known, known.trans same.symm⟩

/-- The nodes of whole trees do not lead out of them. -/
theorem Sound.alike_trees (h : a.Sound) (ids : List NodeId) : a.Alike (a.trees ids) a where
  size := rfl
  config := rfl
  find? _ _ := rfl
  closed x member node found := by
    have live : a.contains x = true := contains_iff.2 ⟨node, found⟩
    obtain ⟨id, named, _, same⟩ := exists_root_eq_of_mem_trees live member
    obtain ⟨root, known, _⟩ := h.exists_root live
    have inside : ∀ y, a.root y = a.root x → y ∈ a.trees ids := fun y related =>
      ⟨id, named, .inr ⟨root, same.trans known, related.trans known⟩⟩
    constructor
    · intro owner owned
      exact inside owner (root_of_owns h.founded ((owner?_of_find? found).trans owned)).symm
    · intro y owned
      obtain ⟨place, listed⟩ := (exists_lists_iff found).2 owned
      exact inside y (root_of_owns h.founded (h.lists_iff.1 listed).1)

/-- Different trees have no live node in common. -/
theorem find?_eq_none_of_apart (apart : ∀ id ∈ ids, ∀ id' ∈ ids', a.contains id = true →
    a.contains id' = true → a.root id ≠ a.root id') (member : x ∈ a.trees ids)
    (member' : x ∈ a.trees ids') : a.find? x = none := by
  cases found : a.find? x with
  | none => rfl
  | some node =>
    have live : a.contains x = true := contains_iff.2 ⟨node, found⟩
    obtain ⟨id, named, idLive, same⟩ := exists_root_eq_of_mem_trees live member
    obtain ⟨id', named', idLive', same'⟩ := exists_root_eq_of_mem_trees live member'
    exact absurd (same.trans same'.symm) (apart id named id' named' idLive idLive')

/-! ## The same nodes, the same arena -/

/-- Two arenas have the same settings and the same nodes in as many slots. -/
structure SameNodes (a b : Arena) : Prop where
  /-- There are as many slots. -/
  size : a.slots.size = b.slots.size
  /-- The settings are the same. -/
  config : a.config = b.config
  /-- The nodes are the same. -/
  find? : ∀ id, a.find? id = b.find? id

theorem SameNodes.slots_eq (same : a.SameNodes b) : a.slots = b.slots := by
  refine Array.ext same.size fun i hi hi' => ?_
  have found := same.find? ⟨i⟩
  rwa [Arena.find?, Arena.find?, Array.getElem?_eq_getElem hi, Array.getElem?_eq_getElem hi',
    Option.join_some, Option.join_some] at found

/-- An arena is determined by its nodes and the count of them. -/
theorem SameNodes.eq (same : a.SameNodes b) (live : a.live = b.live) : a = b := by
  have slots := same.slots_eq
  have config := same.config
  cases a
  cases b
  cases slots
  cases live
  cases config
  rfl

/-- A consistent arena is determined by its nodes, since it counts them. -/
theorem Consistent.eq_of_sameNodes (h : a.Consistent) (h' : b.Consistent)
    (same : a.SameNodes b) : a = b := by
  refine same.eq ?_
  have counted := h.counted
  rw [occupied, same.slots_eq, ← occupied, h'.counted] at counted
  exact Nat.succ.inj counted.symm

/-! ## Two edits -/

/-- After a change elsewhere a region looks as before. -/
theorem Spares.alike (spares : a.Spares region' b) (alike : a.Alike region a)
    (apart : ∀ x ∈ region, x ∈ region' → a.find? x = none) : a.Alike region b where
  size := spares.size
  config := spares.config
  find? x inside := by
    by_cases elsewhere : x ∈ region'
    · have missing := apart x inside elsewhere
      rw [missing, spares.missing missing]
    · exact spares.outside x elsewhere
  closed := alike.closed

end Arena

open Arena

/-- Two edits that are confined to regions without a common node give the same answers in
both orders, and leave the same nodes. -/
theorem Edit.outcome_commute {α β : Type} {a : Arena} {region region' : Set NodeId} {first : Edit α}
    {second : Edit β} (confined : first.Confined region) (confined' : second.Confined region')
    (alike : a.Alike region a) (alike' : a.Alike region' a)
    (apart : ∀ x ∈ region, x ∈ region' → a.find? x = none) :
    (first.outcome (second.outcome a).2).1 = (first.outcome a).1 ∧
      (second.outcome (first.outcome a).2).1 = (second.outcome a).1 ∧
      (second.outcome (first.outcome a).2).2.SameNodes
        (first.outcome (second.outcome a).2).2 := by
  have alone := confined a a alike
  have alone' := confined' a a alike'
  have seen := alone'.spares.alike alike apart
  have seen' := alone.spares.alike alike' fun x inside' inside => apart x inside inside'
  have later := confined _ _ seen
  have later' := confined' _ _ seen'
  have spares := (confined _ _ seen.refl_right).spares
  have spares' := (confined' _ _ seen'.refl_right).spares
  refine ⟨later.answer, later'.answer, ?_, ?_, fun x => ?_⟩
  · rw [spares'.size, spares.size, alone.spares.size, alone'.spares.size]
  · rw [spares'.config, spares.config, alone.spares.config, alone'.spares.config]
  · by_cases inside : x ∈ region
    · by_cases inside' : x ∈ region'
      · have missing := apart x inside inside'
        rw [spares'.missing (alone.spares.missing missing),
          spares.missing (alone'.spares.missing missing)]
      · rw [spares'.outside x inside', later.alike.find? x inside]
    · by_cases inside' : x ∈ region'
      · rw [spares.outside x inside, later'.alike.find? x inside']
      · rw [spares'.outside x inside', spares.outside x inside, alone.spares.outside x inside,
          alone'.spares.outside x inside']

/-! ## Two commands -/

/-- A command that makes no node makes no document. -/
theorem Command.isCreateDocument_of_not_creates {command : Command}
    (makesNothing : command.creates = false) : command.isCreateDocument = false := by
  cases command with
  | createDocument uri => cases makesNothing
  | _ => rfl

/-- Two commands that make nothing and name live nodes of different trees only give the
same answers, and lead to the same arena, whichever comes first. -/
theorem Arena.Reachable.commute {config : Config} {s : Session}
    (reachable : Reachable config s.arena) {x y : Command}
    (makesNothing : x.creates = false) (makesNothing' : y.creates = false)
    (apart : ∀ id ∈ x.ids, ∀ id' ∈ y.ids, s.arena.contains id = true →
      s.arena.contains id' = true → s.arena.root id ≠ s.arena.root id') :
    ((s.run y).2.run x).1 = (s.run x).1 ∧ ((s.run x).2.run y).1 = (s.run y).1 ∧
      ((s.run x).2.run y).2 = ((s.run y).2.run x).2 := by
  have h := reachable.sound
  have inside : ∀ ids : List NodeId, ∀ id ∈ ids, id ∈ s.arena.trees ids :=
    fun ids id named => ⟨id, named, .inl rfl⟩
  obtain ⟨answer, answer', same⟩ := Edit.outcome_commute
    (x.confined makesNothing (inside x.ids) s.nextDocument)
    (y.confined makesNothing' (inside y.ids) s.nextDocument)
    (h.alike_trees x.ids) (h.alike_trees y.ids) fun _ => find?_eq_none_of_apart apart
  have stays := x.isCreateDocument_of_not_creates makesNothing
  have stays' := y.isCreateDocument_of_not_creates makesNothing'
  have arenas := ((h.command s.nextDocument x).command s.nextDocument y).eq_of_sameNodes
    ((h.command s.nextDocument y).command s.nextDocument x).toConsistent same
  simp only [Session.run, stays, stays', Bool.false_eq_true, if_false]
  exact ⟨answer, answer', congrArg (Session.mk · s.nextDocument) arenas⟩

/-- A child is taken out of a document while a detached element with an attribute is
released. -/
theorem commute_of_removal_and_release :
    let session := (Session.start {}).runAll [.createDocument none, .createElement none "a",
      .appendChild ⟨1⟩ ⟨2⟩, .createElement none "b", .addAttribute ⟨3⟩ none "k" "k" "v"]
    ((session.run (.release ⟨3⟩)).2.run (.removeChild ⟨1⟩ ⟨2⟩)).1
        = (session.run (.removeChild ⟨1⟩ ⟨2⟩)).1 ∧
      ((session.run (.removeChild ⟨1⟩ ⟨2⟩)).2.run (.release ⟨3⟩)).1
        = (session.run (.release ⟨3⟩)).1 ∧
      ((session.run (.removeChild ⟨1⟩ ⟨2⟩)).2.run (.release ⟨3⟩)).2
        = ((session.run (.release ⟨3⟩)).2.run (.removeChild ⟨1⟩ ⟨2⟩)).2 :=
  Arena.Reachable.commute (Reachable.runAll (s := .start {}) .empty _) rfl rfl (by decide +kernel)

end XmlTree
