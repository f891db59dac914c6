import XmlTree.Arena.Stack
import XmlTree.Proofs.Failure.Questions
import XmlTree.Proofs.Views

/-!
# What a traversal shows

A traversal shows the nodes of the preorder one after the other, up to the first that is
refused.  It does so round by round with a stack.  What lies on the stack stands for the
trees below it, so the preorders of what is left on the stack are what is still to be shown
(`Sound.traverseRounds_eq`).  A round takes one node off that list, since the preorder of
a node is the node and the preorders of its children.  So there are as many rounds as
there are nodes to show.
-/

namespace XmlTree.Arena

variable {a : Arena} {config : Config} {σ : Type} {visit : Node → EStateM TreeError σ Unit}
variable {start : NodeId} {ids : List NodeId} {nodes shown : List Node} {state state' : σ}

/-! ## Rounds -/

theorem pushAll_reverse (ids stack : List NodeId) : pushAll ids.reverse stack = ids ++ stack := by
  rw [pushAll, List.foldl_reverse]
  exact List.foldr_cons_eq_append'

/-- The preorders of the nodes on the stack are what the rounds have still to show. -/
theorem Sound.traverseRounds_eq (h : a.Sound) (visit : Node → EStateM TreeError σ Unit)
    (rounds : Nat) (stack : List NodeId) : ∃ left,
      left.flatMap a.preorder = (stack.flatMap a.preorder).drop rounds ∧
      a.traverseRounds visit rounds stack = (do
        forM ((stack.flatMap a.preorder).take rounds) (a.showAt visit)
        return left) := by
  induction rounds generalizing stack with
  | zero => exact ⟨stack, rfl, rfl⟩
  | succ rounds ih =>
    cases stack with
    | nil => exact ⟨[], rfl, rfl⟩
    | cons id stack =>
      obtain ⟨left, rest, runs⟩ := ih (a.childrenAt id ++ stack)
      have pending : (id :: stack).flatMap a.preorder
          = id :: (a.childrenAt id ++ stack).flatMap a.preorder := by
        rw [List.flatMap_cons, preorder_eq h, List.flatMap_append, List.cons_append]
      refine ⟨left, by rw [pending, rest, List.drop_succ_cons], ?_⟩
      rw [traverseRounds, pushAll_reverse, runs, pending, List.take_succ_cons, List.forM_cons,
        bind_assoc]

theorem Sound.preorder_ne_nil (h : a.Sound) (id : NodeId) : a.preorder id ≠ [] := by
  rw [preorder_eq h]
  exact List.cons_ne_nil _ _

/-- Only an empty stack has nothing left to show. -/
theorem Sound.flatMap_preorder_eq_nil_iff (h : a.Sound) {stack : List NodeId} :
    stack.flatMap a.preorder = [] ↔ stack = [] := by
  rw [List.flatMap_eq_nil_iff, List.eq_nil_iff_forall_not_mem]
  exact forall_congr' fun id => imp_congr_right fun _ => iff_false_intro (h.preorder_ne_nil id)

/-! ## Visits -/

/-- What comes of a visit, with the nodes that have been shown. -/
def kept (shown : List Node) :
    EStateM.Result TreeError σ Unit → EStateM.Result TreeError (List Node × σ) Unit
  | .ok _ state => .ok () (shown, state)
  | .error e state => .error e (shown, state)

/-- A visitor that also keeps the nodes it is shown, the latest last. -/
def keeping (visit : Node → EStateM TreeError σ Unit) (node : Node) :
    EStateM TreeError (List Node × σ) Unit :=
  fun (shown, state) => kept (shown ++ [node]) (visit node state)

/-- Which of some nodes a visitor is shown, and what comes of it. -/
inductive Shows (visit : Node → EStateM TreeError σ Unit) (nodes : List Node) (state : σ) :
    List Node → EStateM.Result TreeError σ Unit → Prop
  /-- All are shown and none is refused. -/
  | all {state' : σ} (accepted : forM nodes visit state = .ok () state') :
      Shows visit nodes state nodes (.ok () state')
  /-- The first that is refused is the last that is shown. -/
  | upTo {before later : List Node} {node : Node} {e : TreeError} {middle state' : σ}
      (parts : nodes = before ++ node :: later)
      (accepted : forM before visit state = .ok () middle)
      (refused : visit node middle = .error e state') :
      Shows visit nodes state (before ++ [node]) (.error e state')

theorem exists_shows (visit : Node → EStateM TreeError σ Unit) (nodes : List Node) (state : σ) :
    ∃ shown, Shows visit nodes state shown (forM nodes visit state) := by
  cases ran : forM nodes visit state with
  | ok _ state' => exact ⟨nodes, .all ran⟩
  | error e state' =>
    obtain ⟨before, node, later, middle, parts, accepted, refused⟩ :=
      exists_append_of_forM_error ran
    exact ⟨before ++ [node], .upTo parts accepted refused⟩

/-- Where nothing is refused, everything is kept. -/
theorem forM_keeping_of_ok (accepted : forM nodes visit state = .ok () state') :
    forM nodes (keeping visit) (shown, state) = .ok () (shown ++ nodes, state') := by
  induction nodes generalizing shown state with
  | nil =>
    cases accepted
    rw [List.append_nil]
    rfl
  | cons node nodes ih =>
    rw [List.forM_cons] at accepted ⊢
    cases ran : visit node state with
    | error e middle =>
      rw [Edit.bind_of_error ran] at accepted
      cases accepted
    | ok _ middle =>
      rw [Edit.bind_of_ok ran] at accepted
      have here : keeping visit node (shown, state) = .ok () (shown ++ [node], middle) := by
        rw [keeping, ran, kept]
      rw [Edit.bind_of_ok here, ih accepted, List.append_assoc, List.singleton_append]

/-- What is kept is what is shown. -/
theorem Shows.forM_keeping {result : EStateM.Result TreeError σ Unit}
    (shows : Shows visit nodes state shown result) :
    forM nodes (keeping visit) ([], state) = kept shown result := by
  cases shows with
  | all accepted => rw [forM_keeping_of_ok accepted, List.nil_append, kept]
  | @upTo before later node e middle state' parts accepted refused =>
    have last : keeping visit node (before, middle) = .error e (before ++ [node], state') := by
      rw [keeping, refused, kept]
    rw [parts, List.forM_append, Edit.bind_of_ok (forM_keeping_of_ok accepted), List.nil_append,
      List.forM_cons, Edit.bind_of_error last, kept]

/-! ## The nodes of a traversal -/

theorem forM_showAt (visit : Node → EStateM TreeError σ Unit)
    (held : ids.map a.find? = nodes.map some) : forM ids (a.showAt visit) = forM nodes visit := by
  induction ids generalizing nodes with
  | nil =>
    obtain rfl := List.map_eq_nil_iff.1 held.symm
    rfl
  | cons id ids ih =>
    obtain ⟨node, rest, rfl, found, held⟩ := List.map_eq_cons_iff.1 held.symm
    rw [List.forM_cons, List.forM_cons, ih held.symm, showAt, ← found]

/-- The slots of all nodes below a live node hold nodes. -/
theorem Sound.exists_nodes_preorder (h : a.Sound) (live : a.contains start = true) :
    ∃ nodes : List Node, (a.preorder start).map a.find? = nodes.map some := by
  have held : ∀ id ∈ a.preorder start, ∃ node, a.find? id = some node := fun id member =>
    contains_iff.1 (contains_of_mem_fullOrder h live
      ((preorderWithin_sublist a _ start).subset member))
  generalize a.preorder start = ids at held
  induction ids with
  | nil => exact ⟨[], rfl⟩
  | cons id ids ih =>
    obtain ⟨node, found⟩ := held id List.mem_cons_self
    obtain ⟨nodes, rest⟩ := ih fun id member => held id (.tail _ member)
    exact ⟨node :: nodes, by rw [List.map_cons, List.map_cons, found, rest]⟩

/-! ## The laws of traversal -/

/-- What a traversal from a live node shows, and in how many rounds. -/
structure TraversalLaws (a : Arena) (start : NodeId) : Prop where
  /-- The preorder of a node is the node and the preorders of its children. -/
  list : ∀ id, a.preorder id = id :: (a.childrenAt id).flatMap a.preorder
  /-- No node comes twice. -/
  distinct : (a.preorder start).Nodup
  /-- The preorder is what the descendants are. -/
  descendants : a.descendants start = .ok (a.preorder start)
  /-- A traversal shows the nodes of the preorder, all or up to the first that is refused, and
  ends as the last visit did. -/
  visits : ∃ nodes, (a.preorder start).map a.find? = nodes.map some ∧
    ∀ (σ : Type) (visit : Node → EStateM TreeError σ Unit) (state : σ), ∃ shown result,
      Shows visit nodes state shown result ∧ a.traverse start visit state = result ∧
        a.traverse start (keeping visit) ([], state) = kept shown result
  /-- After some rounds with the stack, as many nodes have been shown, and the trees on the
  stack are what is left of the preorder. -/
  rounds : ∀ (σ : Type) (visit : Node → EStateM TreeError σ Unit) (rounds : Nat), ∃ left,
    left.flatMap a.preorder = (a.preorder start).drop rounds ∧
      a.traverseRounds visit rounds [start] = do
        forM ((a.preorder start).take rounds) (a.showAt visit)
        return left
  /-- With as many rounds as there are nodes, the stack is empty and the traversal done. -/
  ends : ∀ (σ : Type) (visit : Node → EStateM TreeError σ Unit) (rounds : Nat),
    (a.preorder start).length ≤ rounds → a.traverseRounds visit rounds [start] = do
      a.traverse start visit
      return []
  /-- With fewer rounds, something is left on the stack unless a node has been refused. -/
  goesOn : ∀ (σ : Type) (visit : Node → EStateM TreeError σ Unit) (rounds : Nat) (state : σ)
    (left : List NodeId) (state' : σ), rounds < (a.preorder start).length →
      a.traverseRounds visit rounds [start] state = .ok left state' → left ≠ []

/-- In every reachable arena the rounds with the stack show the preorder of a live node. -/
theorem Reachable.traversalLaws (reachable : Reachable config a)
    (live : a.contains start = true) : a.TraversalLaws start where
  list := preorder_eq reachable.sound
  distinct := nodup_preorder reachable.sound live
  descendants := descendants_eq reachable.sound live
  visits := by
    obtain ⟨nodes, held⟩ := reachable.sound.exists_nodes_preorder live
    refine ⟨nodes, held, fun σ visit state => ?_⟩
    obtain ⟨shown, shows⟩ := exists_shows visit nodes state
    refine ⟨shown, _, shows, ?_, ?_⟩
    · rw [traverse_eq_forM_preorder, forM_showAt visit held]
    · rw [traverse_eq_forM_preorder, forM_showAt _ held, shows.forM_keeping]
  rounds σ visit rounds := by
    have runs := reachable.sound.traverseRounds_eq visit rounds [start]
    rwa [List.flatMap_singleton] at runs
  ends σ visit rounds enough := by
    obtain ⟨left, rest, runs⟩ := reachable.sound.traverseRounds_eq visit rounds [start]
    rw [List.flatMap_singleton] at rest runs
    rw [List.drop_eq_nil_of_le enough, reachable.sound.flatMap_preorder_eq_nil_iff] at rest
    rw [runs, rest, List.take_of_length_le enough, traverse_eq_forM_preorder]
  goesOn σ visit rounds state left state' fewer ran := by
    obtain ⟨left', rest, runs⟩ := reachable.sound.traverseRounds_eq visit rounds [start]
    rw [List.flatMap_singleton] at rest runs
    have pending : left' ≠ [] := by
      rintro rfl
      exact absurd (List.drop_eq_nil_iff.1 rest.symm) (Nat.not_le.2 fewer)
    rw [runs] at ran
    cases shown : forM ((a.preorder start).take rounds) (a.showAt visit) state with
    | error e middle =>
      rw [Edit.bind_of_error shown] at ran
      cases ran
    | ok _ middle =>
      rw [Edit.bind_of_ok shown] at ran
      cases ran
      exact pending

/-- A document whose element has an element with a text, and a comment after that. -/
def branchedTree : Arena :=
  ((Session.start {}).runAll
    [.createDocument none, .createElement none "a", .appendChild ⟨1⟩ ⟨2⟩, .createElement none "b",
      .appendChild ⟨2⟩ ⟨3⟩, .createText "t", .appendChild ⟨3⟩ ⟨4⟩, .createComment "c",
      .appendChild ⟨2⟩ ⟨5⟩]).arena

/-- The traversal of a tree with a branch below the first child. -/
theorem traversalLaws_of_branch :
    branchedTree.contains ⟨1⟩ = true ∧ branchedTree.TraversalLaws ⟨1⟩ :=
  have live := by decide +kernel
  ⟨live, Reachable.traversalLaws (Reachable.runAll (s := .start {}) .empty _) live⟩

-- A visitor that refuses the text is not shown the comment.
example :
    let visit (node : Node) : EStateM TreeError (List NodeId) Unit := do
      note node
      if node.type = .text then throw (.notFound node.id)
    branchedTree.traverse ⟨1⟩ visit [] = .error (.notFound ⟨4⟩) [⟨4⟩, ⟨3⟩, ⟨2⟩, ⟨1⟩] := by
  rfl

end XmlTree.Arena
