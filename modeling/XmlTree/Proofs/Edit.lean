import XmlTree.Edit

/-!
# Running edits

An edit runs from left to right, as every computation with a state does.  A
question that fails ends the edit and leaves the arena as it is (`query_bind`).  A
change of a live node succeeds (`change_bind_of_live`).  These are the only facts
about running that the laws of the single edits use.
-/

namespace XmlTree.Edit

variable {α β ε σ : Type} {a a' : Arena}

/-! ## One step after the other -/

theorem throw_bind (e : TreeError) (next : α → Edit β) (a : Arena) :
    ((throw e : Edit α) >>= next) a = .error e a := rfl

theorem bind_run (first : EStateM ε σ α) (next : α → EStateM ε σ β) (state : σ) :
    (first >>= next) state = match first state with
      | .ok answer state' => next answer state'
      | .error e state' => .error e state' := by
  show EStateM.bind first next state = _
  rw [EStateM.bind]
  cases first state <;> rfl

theorem bind_of_ok {first : EStateM ε σ α} {next : α → EStateM ε σ β} {answer : α}
    {state state' : σ} (h : first state = .ok answer state') :
    (first >>= next) state = next answer state' := by
  rw [bind_run, h]

theorem bind_of_error {first : EStateM ε σ α} {next : α → EStateM ε σ β} {e : ε}
    {state state' : σ} (h : first state = .error e state') :
    (first >>= next) state = .error e state' := by
  rw [bind_run, h]

theorem map_run (f : α → β) (edit : Edit α) (a : Arena) :
    (f <$> edit) a = match edit a with
      | .ok answer a' => .ok (f answer) a'
      | .error e a' => .error e a' := by
  show EStateM.map f edit a = _
  rw [EStateM.map]
  cases edit a <;> rfl

theorem run_of_outcome {edit : Edit α} {answer : α} (ok : (edit.outcome a).1 = .ok answer) :
    edit a = .ok answer (edit.outcome a).2 := by
  rw [outcome] at ok ⊢
  cases ran : edit a with
  | ok answer' a' =>
    rw [ran] at ok
    cases ok
    rfl
  | error e a' =>
    rw [ran] at ok
    cases ok

theorem map_run_eq_ok_iff {f : α → β} {edit : Edit α} {answer : β} :
    (f <$> edit) a = .ok answer a' ↔ ∃ v, edit a = .ok v a' ∧ f v = answer := by
  rw [map_run]
  cases edit a with
  | ok v b =>
    constructor
    · intro ok
      cases ok
      exact ⟨v, rfl, rfl⟩
    · intro ⟨_, ran, same⟩
      cases ran
      cases same
      rfl
  | error e b => exact ⟨nofun, nofun⟩

/-! ## Questions and changes -/

theorem query_run (question : Arena → Except TreeError α) (a : Arena) :
    query question a = match question a with
      | .ok answer => .ok answer a
      | .error e => .error e a := rfl

theorem query_bind (question : Arena → Except TreeError α) (next : α → Edit β) (a : Arena) :
    (query question >>= next) a = match question a with
      | .ok answer => next answer a
      | .error e => .error e a := by
  rw [bind_run, query_run]
  cases question a <;> rfl

theorem discard_query_bind (question : Arena → Except TreeError α) (next : Unit → Edit β)
    (a : Arena) : (discard (query question) >>= next) a = match question a with
      | .ok _ => next () a
      | .error e => .error e a := by
  rw [bind_run, show discard (query question) = (fun _ => ()) <$> query question from rfl, map_run,
    query_run]
  cases question a <;> rfl

theorem change_of_live {id : NodeId} (live : a.contains id = true) (f : Node → Node) :
    change id f a = .ok () (a.update id f) := by
  rw [change, if_pos live]

theorem change_bind_of_live {id : NodeId} (live : a.contains id = true) (f : Node → Node)
    (next : Unit → Edit β) : (change id f >>= next) a = next () (a.update id f) :=
  bind_of_ok (change_of_live live f)

theorem setParent_of_live {id : NodeId} (live : a.contains id = true) (parent : Option NodeId) :
    setParent id parent a = .ok () (a.update id (Node.withParent parent)) :=
  change_of_live live _

theorem setParent_bind_of_live {id : NodeId} (live : a.contains id = true)
    (parent : Option NodeId) (next : Unit → Edit β) :
    (setParent id parent >>= next) a = next () (a.update id (Node.withParent parent)) :=
  bind_of_ok (setParent_of_live live parent)

theorem setParent_bind_of_missing {id : NodeId} (missing : a.contains id = false)
    (parent : Option NodeId) (next : Unit → Edit β) :
    (setParent id parent >>= next) a = .error (.notFound id) a :=
  bind_of_error (if_neg (Bool.eq_false_iff.1 missing))

end XmlTree.Edit
