import XmlTree.Proofs.Ownership.Consistent

/-!
# Fair failures

A failure is fair when it is about the question and not about the arena: it does not call
the arena inconsistent, and a node that it misses is one the caller named and is indeed
not live.  A computation *fails fairly* when all its failures are fair.

Failing fairly goes through a computation step by step.  A step that looks up what the
caller named fails fairly (`failsFairly_get`), a step that succeeds does not fail at all
(`FailsFairly.of_ok`), and the rest is put together by `FailsFairly.bind`,
`FailsFairly.mapM` and `FailsFairly.foldlM`.
-/

namespace XmlTree

variable {a : Arena} {ids : List NodeId} {x : NodeId} {e : TreeError} {α β : Type}

/-- A failure that the arena is not to blame for, when the caller named `ids`. -/
structure TreeError.Fair (a : Arena) (ids : List NodeId) (e : TreeError) : Prop where
  /-- The arena is not called inconsistent. -/
  consistent : e.category ≠ "InternalInconsistency"
  /-- A node that is not found was named by the caller and is not live. -/
  named : ∀ id, e = .notFound id → id ∈ ids ∧ a.contains id = false

namespace TreeError

/-- Fairness by cause. -/
theorem fair_iff : e.Fair a ids ↔ match e with
    | .notFound id => id ∈ ids ∧ a.contains id = false
    | .lost _ _ | .adrift _ => False
    | _ => True := by
  constructor
  · intro ⟨consistent, named⟩
    cases e with
    | notFound id => exact named id rfl
    | lost child parent => exact consistent rfl
    | adrift id => exact consistent rfl
    | _ => trivial
  · intro fair
    cases e with
    | notFound id => exact ⟨by simp [category], fun _ same => notFound.inj same ▸ fair⟩
    | lost child parent => exact fair.elim
    | adrift id => exact fair.elim
    | _ => exact ⟨by simp [category], nofun⟩

theorem fair_notFound (named : x ∈ ids) (missing : a.find? x = none) : (notFound x).Fair a ids :=
  fair_iff.2 ⟨named, by rw [Arena.contains, missing, Option.isSome_none]⟩

end TreeError

namespace Arena

/-- A computation fails for fair reasons only. -/
def FailsFairly (a : Arena) (ids : List NodeId) (answer : Except TreeError α) : Prop :=
  ∀ e, answer = .error e → e.Fair a ids

/-! ## Putting steps together -/

namespace FailsFairly

variable {answer : Except TreeError α} {next : α → Except TreeError β}

theorem of_ok {v : α} (ok : answer = .ok v) : a.FailsFairly ids answer := by
  intro e failed
  cases ok.symm.trans failed

theorem pure (v : α) : a.FailsFairly ids (Pure.pure v) := of_ok rfl

theorem throw (fair : e.Fair a ids) : a.FailsFairly ids (throw e : Except TreeError α) := by
  rintro _ ⟨⟩
  exact fair

theorem bind (first : a.FailsFairly ids answer)
    (later : ∀ v, answer = .ok v → a.FailsFairly ids (next v)) :
    a.FailsFairly ids (answer >>= next) := by
  intro e failed
  cases ran : answer with
  | error e' =>
    rw [ran] at failed
    cases failed
    exact first _ ran
  | ok v =>
    rw [ran] at failed
    exact later v ran e failed

theorem map (first : a.FailsFairly ids answer) (f : α → β) : a.FailsFairly ids (f <$> answer) := by
  rw [map_eq_pure_bind]
  exact first.bind fun _ _ => .pure _

theorem ite {c : Prop} [Decidable c] {yes no : Except TreeError α}
    (h : a.FailsFairly ids yes) (h' : a.FailsFairly ids no) :
    a.FailsFairly ids (if c then yes else no) := by
  split
  · exact h
  · exact h'

theorem throw_bind (fair : e.Fair a ids) :
    a.FailsFairly ids (MonadExcept.throw e >>= next) :=
  .throw fair

theorem mapM {f : α → Except TreeError β} {xs : List α}
    (each : ∀ x ∈ xs, a.FailsFairly ids (f x)) : a.FailsFairly ids (xs.mapM f) := by
  induction xs with
  | nil => exact .pure []
  | cons x rest ih =>
    rw [List.mapM_cons]
    refine (each x List.mem_cons_self).bind fun y _ => ?_
    exact (ih fun z later => each z (.tail _ later)).bind fun ys _ => .pure _

theorem foldlM {f : β → α → Except TreeError β} {xs : List α}
    (each : ∀ v, ∀ x ∈ xs, a.FailsFairly ids (f v x)) (start : β) :
    a.FailsFairly ids (xs.foldlM f start) := by
  induction xs generalizing start with
  | nil => exact .pure start
  | cons x rest ih =>
    rw [List.foldlM_cons]
    refine (each start x List.mem_cons_self).bind fun v _ => ?_
    exact ih (fun v z later => each v z (.tail _ later)) v

end FailsFairly

/-! ## Single nodes -/

theorem get_of_contains (live : a.contains x = true) : ∃ node, a.get x = .ok node := by
  obtain ⟨node, found⟩ := contains_iff.1 live
  exact ⟨node, get_of_find? found⟩

theorem failsFairly_get (named : x ∈ ids) : a.FailsFairly ids (a.get x) := by
  cases found : a.find? x with
  | none =>
    rw [get_of_not_find? found]
    exact .throw (TreeError.fair_notFound named found)
  | some node => exact .of_ok (get_of_find? found)

/-- A live node is found, whoever names it. -/
theorem failsFairly_get_of_contains (live : a.contains x = true) : a.FailsFairly ids (a.get x) := by
  obtain ⟨node, ok⟩ := get_of_contains live
  exact .of_ok ok

/-- A named node may be of another type than the caller asks for. -/
theorem failsFairly_get_bind (view : Node → Option β) (expected : Expected) (named : x ∈ ids)
    {next : Node → Except TreeError β}
    (next_eq : ∀ node, next node = (view node).elim (throw (.wrongType expected node.type)) pure) :
    a.FailsFairly ids (a.get x >>= next) := by
  refine (failsFairly_get named).bind fun node _ => ?_
  rw [next_eq]
  cases view node with
  | some data => exact .pure data
  | none => exact .throw (TreeError.fair_iff.2 trivial)

theorem failsFairly_element (named : x ∈ ids) : a.FailsFairly ids (a.element x) :=
  failsFairly_get_bind Node.element? (.exactly .element) named fun node => by
    cases node.element? <;> rfl

theorem failsFairly_attributeData (named : x ∈ ids) : a.FailsFairly ids (a.attributeData x) :=
  failsFairly_get_bind Node.attribute? (.exactly .attr) named fun node => by
    cases node.attribute? <;> rfl

theorem failsFairly_namespaceData (named : x ∈ ids) : a.FailsFairly ids (a.namespaceData x) :=
  failsFairly_get_bind Node.namespaceDecl? (.exactly .namespaceDecl) named fun node => by
    cases node.namespaceDecl? <;> rfl

theorem failsFairly_document (named : x ∈ ids) : a.FailsFairly ids (a.document x) :=
  failsFairly_get_bind Node.document? (.exactly .document) named fun node => by
    cases node.document? <;> rfl

end Arena

end XmlTree
