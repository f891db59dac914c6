import Mathlib.Order.Monotone.Basic
import XmlTree.Proofs.Identity.Lossless

/-!
# Identities along a run

A `Run` gives a command for every point in time, with the number that a document made then
would get.  The arena at time 0 is empty, and the arena at time `t + 1` is what the command
of time `t` leaves behind, successful or not.  A session that carries out a list of
commands passes through the arenas of such a run (`Run.arena_ofSession`).

Two facts about one step carry everything.  A node is live after the step if the step made
it, or if it was live before and the step does not release it (`contains_succ_iff`).  What
is live after the step and was not made by it has the core that it had before
(`core_succ`).  Since the number of slots never goes down, a new identity is larger than
all that were ever live, so no step makes an identity again (`index_lt_of_makes`), and both
facts go on for as long as the node lives.
-/

namespace XmlTree

open Arena

/-- A command for every point in time. -/
structure Run where
  /-- The settings of the arena. -/
  config : Config
  /-- The number that a document made at a time would get. -/
  documentNumber : Nat → Nat
  /-- The command of a time. -/
  command : Nat → Command

namespace Run

/-! ## Arenas and replies -/

/-- The arena at a time, before the command of that time. -/
def arena (run : Run) : Nat → Arena
  | 0 => .empty run.config
  | t + 1 => (((run.command t).edit (run.documentNumber t)).outcome (run.arena t)).2

/-- What the command of a time answers. -/
def reply (run : Run) (t : Nat) : Except TreeError Reply :=
  (((run.command t).edit (run.documentNumber t)).outcome (run.arena t)).1

/-- At this time the identity is handed out for a new node. -/
def Makes (run : Run) (t : Nat) (id : NodeId) : Prop := run.reply t = .ok (.made id)

instance (run : Run) (t : Nat) (id : NodeId) : Decidable (run.Makes t id) :=
  inferInstanceAs (Decidable (run.reply t = .ok (.made id)))

/-- At this time a release succeeds that takes the node away, on its own or with a node
that it is below. -/
def Releases (run : Run) (t : Nat) (id : NodeId) : Prop :=
  (∃ reply, run.reply t = .ok reply) ∧ (run.command t).Covers (run.arena t) id

variable {run : Run} {s t u : Nat} {x id : NodeId} {node node' : Node}

theorem reachable_arena (run : Run) (t : Nat) : Reachable run.config (run.arena t) := by
  induction t with
  | zero => exact .empty
  | succ t ih => exact .command (run.documentNumber t) (run.command t) ih

theorem consistent_arena (run : Run) (t : Nat) : (run.arena t).Consistent :=
  (run.reachable_arena t).sound.toConsistent

/-- The run with another command at one time. -/
def doing (run : Run) (t documentNumber : Nat) (command : Command) : Run where
  config := run.config
  documentNumber := Function.update run.documentNumber t documentNumber
  command := Function.update run.command t command

/-- Up to the time of the other command nothing is different. -/
theorem arena_doing (run : Run) (documentNumber : Nat) (command : Command) (upTo : s ≤ t) :
    (run.doing t documentNumber command).arena s = run.arena s := by
  induction s with
  | zero => rfl
  | succ s ih =>
    have earlier : s ≠ t := Nat.ne_of_lt upTo
    rw [arena, ih (Nat.le_of_succ_le upTo), arena]
    simp only [doing, Function.update_of_ne earlier]

theorem arena_doing_succ (run : Run) (t documentNumber : Nat) (command : Command) :
    (run.doing t documentNumber command).arena (t + 1)
      = ((command.edit documentNumber).outcome (run.arena t)).2 := by
  rw [arena, arena_doing run documentNumber command (Nat.le_refl t)]
  simp only [doing, Function.update_self]

/-- Every reachable arena is one that a run comes to. -/
theorem exists_arena_eq {config : Config} {a : Arena} (reachable : Reachable config a) :
    ∃ (run : Run) (t : Nat), run.config = config ∧ run.arena t = a := by
  induction reachable with
  | empty => exact ⟨⟨config, fun _ => 0, fun _ => .release xmlDeclaration⟩, 0, rfl, rfl⟩
  | command documentNumber command _ ih =>
    obtain ⟨run, t, same, rfl⟩ := ih
    exact ⟨run.doing t documentNumber command, t + 1, same, arena_doing_succ run t _ _⟩

/-! ## One step -/

theorem edit_of_reply {reply : Reply} (answer : run.reply t = .ok reply) :
    (run.command t).edit (run.documentNumber t) (run.arena t) = .ok reply (run.arena (t + 1)) :=
  Edit.run_of_outcome answer

theorem arena_succ_of_error {e : TreeError} (failed : run.reply t = .error e) :
    run.arena (t + 1) = run.arena t :=
  (run.command t).eq_of_error (run.consistent_arena t) _ failed

/-- What is live after a step is what it made, and what was live and is not released. -/
theorem contains_succ_iff : (run.arena (t + 1)).contains x = true ↔
    run.Makes t x ∨ (run.arena t).contains x = true ∧ ¬ run.Releases t x := by
  cases answer : run.reply t with
  | error e => simp [arena_succ_of_error answer, Makes, Releases, answer]
  | ok reply =>
    rw [Command.contains_iff (run.consistent_arena t) (edit_of_reply answer)]
    simp [Makes, Releases, answer]

/-- A step fills the next free slot and says so, or it fills none.  Otherwise it leaves the
core of every node alone. -/
theorem step_cases (run : Run) (t : Nat) :
    (∃ kind, run.Makes t (run.arena t).nextId ∧
      ((run.arena t).push kind).Spares Set.univ (run.arena (t + 1))) ∨
    (∀ id, ¬ run.Makes t id) ∧ (run.arena t).Spares Set.univ (run.arena (t + 1)) := by
  cases answer : run.reply t with
  | error e => exact .inr ⟨by simp [Makes, answer], arena_succ_of_error answer ▸ .refl _ _⟩
  | ok reply =>
    have ran := edit_of_reply answer
    cases payload : (run.command t).payload? (run.documentNumber t) with
    | none =>
      obtain ⟨nothing, spares⟩ := Command.spares payload ran
      exact .inr ⟨fun id makes => nothing id (Except.ok.inj (answer.symm.trans makes)), spares⟩
    | some kind =>
      obtain ⟨rfl, spares⟩ := Command.makes (run.consistent_arena t) payload ran
      exact .inl ⟨kind, answer, spares⟩

/-- What a step makes has the number of the first slot that was free, which then is not. -/
theorem index_of_makes (makes : run.Makes t id) :
    id.index = (run.arena t).slots.size ∧ id.index < (run.arena (t + 1)).slots.size := by
  rcases run.step_cases t with ⟨kind, made, spares⟩ | ⟨nothing, _⟩
  · obtain rfl : id = (run.arena t).nextId := by
      rw [Makes] at makes made
      cases makes.symm.trans made
      rfl
    rw [spares.size, push, Array.size_push]
    exact ⟨rfl, Nat.lt_succ_self _⟩
  · exact absurd makes (nothing id)

theorem size_le_succ (run : Run) (t : Nat) :
    (run.arena t).slots.size ≤ (run.arena (t + 1)).slots.size := by
  rcases run.step_cases t with ⟨kind, _, spares⟩ | ⟨_, spares⟩
  · rw [spares.size, push, Array.size_push]
    exact Nat.le_succ _
  · exact spares.size.ge

/-- What is live after a step and is not new was live before, with the same core. -/
theorem core_succ (found' : (run.arena (t + 1)).find? x = some node') (old : ¬ run.Makes t x) :
    ∃ node, (run.arena t).find? x = some node ∧ node'.kind.core = node.kind.core := by
  rcases run.step_cases t with ⟨kind, made, spares⟩ | ⟨_, spares⟩
  · obtain ⟨node, found, same⟩ := spares.core x node' found'
    have other : (run.arena t).nextId ≠ x := fun new => old (new ▸ made)
    rw [find?_push, if_neg other] at found
    exact ⟨node, found, same⟩
  · exact spares.core x node' found'

/-! ## Any number of steps -/

theorem size_mono (run : Run) : Monotone fun t => (run.arena t).slots.size :=
  monotone_nat_of_le_succ run.size_le_succ

/-- A new identity is larger than all that were ever live. -/
theorem index_lt_of_makes (live : (run.arena s).contains x = true) (upTo : s ≤ t)
    (makes : run.Makes t id) : x.index < id.index :=
  calc x.index
    _ < (run.arena s).slots.size := index_lt_of_contains live
    _ ≤ (run.arena t).slots.size := run.size_mono upTo
    _ = id.index := (index_of_makes makes).1.symm

theorem not_makes_of_contains (live : (run.arena s).contains x = true) (upTo : s ≤ t) :
    ¬ run.Makes t x := fun makes =>
  Nat.lt_irrefl _ (index_lt_of_makes live upTo makes)

/-- A live node lives on until it is released, and is then never live again. -/
theorem contains_iff_of_contains (live : (run.arena s).contains x = true) (upTo : s ≤ t) :
    (run.arena t).contains x = true ↔ ∀ r, s ≤ r → r < t → ¬ run.Releases r x := by
  induction t, upTo using Nat.le_induction with
  | base =>
    simp only [live, true_iff]
    exact fun r starts ends _ => Nat.lt_irrefl _ (starts.trans_lt ends)
  | succ t upTo ih =>
    -- The identity is not handed out a second time, so only a release matters.
    have old := not_makes_of_contains live upTo
    rw [contains_succ_iff, or_iff_right old, ih]
    constructor
    · intro ⟨before, now⟩ r starts ends
      rcases Nat.lt_succ_iff_lt_or_eq.1 ends with earlier | rfl
      · exact before r starts earlier
      · exact now
    · intro never
      exact ⟨fun r starts ends => never r starts (Nat.lt_succ_of_lt ends),
        never t upTo (Nat.lt_succ_self t)⟩

/-- What is live was there from the start or was made. -/
theorem exists_makes_of_contains (live : (run.arena t).contains x = true) :
    x = xmlDeclaration ∨ ∃ s, s < t ∧ run.Makes s x := by
  induction t with
  | zero =>
    obtain ⟨node, found⟩ := contains_iff.1 live
    rw [arena, find?_empty] at found
    split at found
    next builtIn => exact .inl builtIn
    next missing => cases found
  | succ t ih =>
    rcases contains_succ_iff.1 live with makes | ⟨before, _⟩
    · exact .inr ⟨t, Nat.lt_succ_self t, makes⟩
    · exact (ih before).imp_right fun ⟨s, earlier, makes⟩ => ⟨s, Nat.lt_succ_of_lt earlier, makes⟩

/-- A node has the same core whenever it is live. -/
theorem core_eq (found : (run.arena s).find? x = some node) (upTo : s ≤ t)
    (found' : (run.arena t).find? x = some node') : node'.kind.core = node.kind.core := by
  induction t, upTo using Nat.le_induction generalizing node' with
  | base =>
    cases found.symm.trans found'
    rfl
  | succ t upTo ih =>
    have old := not_makes_of_contains (contains_iff.2 ⟨node, found⟩) upTo
    obtain ⟨between, foundBetween, same⟩ := core_succ found' old
    exact same.trans (ih foundBetween)

/-! ## Sessions -/

/-- The run of a session that carries out a list of commands.  After the last one nothing
happens any more: the built-in declaration cannot be released. -/
def ofSession (config : Config) (commands : List Command) : Run where
  config := config
  documentNumber t := ((Session.start config).runAll (commands.take t)).nextDocument
  command t := commands[t]?.getD (.release xmlDeclaration)

/-- A session passes through the arenas of its run. -/
theorem arena_ofSession (config : Config) (commands : List Command) (t : Nat) :
    (ofSession config commands).arena t
      = ((Session.start config).runAll (commands.take t)).arena := by
  induction t with
  | zero => rfl
  | succ t ih =>
    rw [arena, ih, List.take_add_one, Session.runAll, Session.runAll, List.foldl_append]
    simp only [ofSession]
    cases commands[t]? with
    | none => rfl
    | some command => rfl

/-! ## The laws of identities -/

/-- What a run makes of identities. -/
structure IdentityLaws (run : Run) : Prop where
  /-- A command that is to make a node and succeeds answers with an identity. -/
  answers : ∀ t reply, (run.command t).creates = true → run.reply t = .ok reply →
    ∃ id, run.Makes t id
  /-- Identities are handed out in ascending order. -/
  ascending : ∀ s t id id', s < t → run.Makes s id → run.Makes t id' → id.index < id'.index
  /-- A new identity is larger than all that were ever live. -/
  fresh : ∀ s t x id, s ≤ t → (run.arena s).contains x = true → run.Makes t id →
    x.index < id.index
  /-- What was made is live for as long as no release has covered it, and only so long. -/
  lives : ∀ t u id, run.Makes t id → t < u →
    ((run.arena u).contains id = true ↔ ∀ r, t < r → r < u → ¬ run.Releases r id)
  /-- What is live was made, but for the built-in declaration. -/
  made : ∀ t id, (run.arena t).contains id = true → id ≠ xmlDeclaration →
    ∃ s, s < t ∧ run.Makes s id
  /-- A node has the same core whenever it is live. -/
  core : ∀ s t id node node', s ≤ t → (run.arena s).find? id = some node →
    (run.arena t).find? id = some node' → node'.kind.core = node.kind.core
  /-- The built-in declaration is always there, and always the same. -/
  builtIn : ∀ t, (run.arena t).find? xmlDeclaration = some xmlDeclarationNode

/-- Along every run identities are handed out once, and each stands for one node, which
stays what it is for as long as it lives. -/
theorem identityLaws (run : Run) : run.IdentityLaws where
  answers t reply creates answer := by
    rw [Command.creates_eq_isSome_payload? (run.documentNumber t),
      Option.isSome_iff_exists] at creates
    obtain ⟨kind, payload⟩ := creates
    obtain ⟨rfl, _⟩ := Command.makes (run.consistent_arena t) payload (edit_of_reply answer)
    exact ⟨_, answer⟩
  ascending s t id id' before makes makes' :=
    index_lt_of_makes (contains_succ_iff.2 (.inl makes)) before makes'
  fresh s t x id upTo live makes := index_lt_of_makes live upTo makes
  lives t u id makes before := contains_iff_of_contains (contains_succ_iff.2 (.inl makes)) before
  made t id live other := (exists_makes_of_contains live).resolve_left other
  core s t id node node' upTo found found' := core_eq found upTo found'
  builtIn t := (run.consistent_arena t).builtIn

-- A creation that fails uses up no identity.
example :
    let run := ofSession {} [.createText "a", .createElement none "p:b", .createText "c"]
    run.Makes 0 ⟨1⟩ ∧ run.Makes 2 ⟨2⟩ := by
  decide +kernel

end Run

end XmlTree
