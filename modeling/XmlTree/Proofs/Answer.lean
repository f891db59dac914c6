/-!
# Answers that may fail

When a computation that can fail at several points succeeds, it has passed all of
them.  These laws take such a success apart, one point at a time.
-/

namespace XmlTree

variable {ε α β : Type} {b : β}

theorem bind_eq_ok_iff {x : Except ε α} {f : α → Except ε β} :
    (x >>= f) = .ok b ↔ ∃ v, x = .ok v ∧ f v = .ok b := by
  cases x with
  | error e => simp [bind, Except.bind]
  | ok v => simp [bind, Except.bind]

theorem map_eq_ok_iff {x : Except ε α} {f : α → β} :
    (f <$> x) = .ok b ↔ ∃ v, x = .ok v ∧ f v = b := by
  cases x with
  | error e => simp [Functor.map, Except.map]
  | ok v => simp [Functor.map, Except.map]

theorem pure_eq_ok_iff {v : β} : (pure v : Except ε β) = .ok b ↔ v = b := by
  simp [pure, Except.pure]

theorem discard_eq_ok_iff {x : Except ε α} {u : PUnit} : discard x = .ok u ↔ ∃ v, x = .ok v := by
  rw [show discard x = (fun _ => ()) <$> x from rfl, map_eq_ok_iff]
  simp

section Guards

variable {c : Prop} [Decidable c] {e : ε} {x : Except ε β} {f : α → Except ε β}

theorem ite_throw_eq_ok_iff : (if c then throw e else x) = .ok b ↔ ¬ c ∧ x = .ok b := by
  by_cases h : c
  · rw [if_pos h]
    exact ⟨nofun, fun both => absurd h both.1⟩
  · rw [if_neg h, and_iff_right h]

theorem ite_else_throw_eq_ok_iff : (if c then x else throw e) = .ok b ↔ c ∧ x = .ok b := by
  by_cases h : c
  · rw [if_pos h, and_iff_right h]
  · rw [if_neg h]
    exact ⟨nofun, fun both => absurd both.1 h⟩

theorem when_eq_ok_iff : (if c then (throw e >>= f) else x) = .ok b ↔ ¬ c ∧ x = .ok b :=
  ite_throw_eq_ok_iff

theorem unless_eq_ok_iff : (if c then x else (throw e >>= f)) = .ok b ↔ c ∧ x = .ok b :=
  ite_else_throw_eq_ok_iff

end Guards

/-- A whole list is answered when each of its members is. -/
theorem mapM_eq_ok {f : α → Except ε β} {g : α → β} {xs : List α}
    (each : ∀ x ∈ xs, f x = .ok (g x)) : xs.mapM f = .ok (xs.map g) := by
  induction xs with
  | nil => rfl
  | cons x rest ih =>
    rw [List.mapM_cons, each x List.mem_cons_self, ih fun y member => each y (.tail _ member)]
    rfl

/-- Two questions that answer alike for each member answer alike for the list. -/
theorem mapM_congr {f g : α → Except ε β} {xs : List α} (each : ∀ x ∈ xs, f x = g x) :
    xs.mapM f = xs.mapM g := by
  induction xs with
  | nil => rfl
  | cons x rest ih =>
    rw [List.mapM_cons, List.mapM_cons, each x List.mem_cons_self,
      ih fun y member => each y (.tail _ member)]

/-- When a whole list is answered, so is each of its members. -/
theorem exists_mem_of_mapM {f : α → Except ε β} {xs : List α} {ys : List β}
    (answered : xs.mapM f = .ok ys) {x : α} (member : x ∈ xs) : ∃ y ∈ ys, f x = .ok y := by
  induction xs generalizing ys with
  | nil => cases member
  | cons z rest ih =>
    rw [List.mapM_cons] at answered
    simp only [bind_eq_ok_iff, pure_eq_ok_iff] at answered
    obtain ⟨y, first, later, answeredRest, rfl⟩ := answered
    rcases List.mem_cons.1 member with rfl | member
    · exact ⟨y, List.mem_cons_self, first⟩
    · obtain ⟨y', member', same⟩ := ih answeredRest member
      exact ⟨y', .tail _ member', same⟩

/-- Each of the answers for a list is the answer for one of its members. -/
theorem exists_of_mem_mapM {f : α → Except ε β} {xs : List α} {ys : List β}
    (answered : xs.mapM f = .ok ys) {y : β} (member : y ∈ ys) : ∃ x ∈ xs, f x = .ok y := by
  induction xs generalizing ys with
  | nil =>
    cases answered
    cases member
  | cons x rest ih =>
    rw [List.mapM_cons] at answered
    simp only [bind_eq_ok_iff, pure_eq_ok_iff] at answered
    obtain ⟨z, first, later, answeredRest, rfl⟩ := answered
    rcases List.mem_cons.1 member with rfl | member
    · exact ⟨x, List.mem_cons_self, first⟩
    · obtain ⟨x', member', same⟩ := ih answeredRest member
      exact ⟨x', .tail _ member', same⟩

/-- A whole list is answered when there is an answer for each of its members. -/
theorem exists_mapM_eq_ok {f : α → Except ε β} {xs : List α}
    (each : ∀ x ∈ xs, ∃ y, f x = .ok y) : ∃ ys, xs.mapM f = .ok ys := by
  induction xs with
  | nil => exact ⟨[], rfl⟩
  | cons x rest ih =>
    obtain ⟨y, first⟩ := each x List.mem_cons_self
    obtain ⟨ys, later⟩ := ih fun x' member => each x' (.tail _ member)
    refine ⟨y :: ys, ?_⟩
    rw [List.mapM_cons, first, later]
    rfl

end XmlTree
