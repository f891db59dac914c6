import Mathlib.Data.Option.Basic
import XmlTree.Proofs.Lineage
import XmlTree.Proofs.Order.Ranks

/-!
# Laws of the comparison

The comparison is a partial order in any arena, also in one whose lists repeat nodes,
miss nodes or disagree with the owners that the nodes name (`orderLaws`).

Two facts carry this.  Ranks below one owner tell nodes apart (`siblingRank_inj`).  And
a way down ends at the node it was asked for (`getLastD_steps`), so two nodes with one
way are the same node.  What the comparison reads at the point where two ways part is
the same whichever way comes first, and a third way parts from one of them there or
further up.
-/

namespace XmlTree.Arena

variable {a : Arena} {owner x y z : NodeId} {xs ys zs : List NodeId} {o p : Ordering}
variable {v w u : Descent}

/-! ## Steps -/

theorem compareSteps_cons_self :
    a.compareSteps owner (x :: xs) (x :: ys) = a.compareSteps x xs ys := by
  rw [compareSteps, if_pos rfl]

theorem compareSteps_cons_eq_ok_iff (apart : x ≠ y) :
    a.compareSteps owner (x :: xs) (y :: ys) = .ok o ↔ ∃ r s,
      a.siblingRank owner x = .ok r ∧ a.siblingRank owner y = .ok s ∧ r.compare s = o := by
  rw [compareSteps, if_neg apart]
  simp only [bind_eq_ok_iff, pure_eq_ok_iff]
  simp only [exists_and_left]

/-- The order turns round with the steps. -/
theorem compareSteps_swap (h : a.compareSteps owner xs ys = .ok o) :
    a.compareSteps owner ys xs = .ok o.swap := by
  induction xs generalizing owner ys with
  | nil =>
    cases ys with
    | nil => cases h; rfl
    | cons y ys => cases h; rfl
  | cons x xs ih =>
    cases ys with
    | nil => cases h; rfl
    | cons y ys =>
      by_cases same : x = y
      · subst same
        rw [compareSteps_cons_self] at h ⊢
        exact ih h
      · obtain ⟨r, s, rankX, rankY, rfl⟩ := (compareSteps_cons_eq_ok_iff same).1 h
        exact (compareSteps_cons_eq_ok_iff (Ne.symm same)).2
          ⟨s, r, rankY, rankX, Std.OrientedCmp.eq_swap⟩

/-- Only the same steps lead to the same place. -/
theorem eq_of_compareSteps (h : a.compareSteps owner xs ys = .ok .eq) : xs = ys := by
  induction xs generalizing owner ys with
  | nil =>
    cases ys with
    | nil => rfl
    | cons y ys => cases h
  | cons x xs ih =>
    cases ys with
    | nil => cases h
    | cons y ys =>
      by_cases same : x = y
      · subst same
        rw [compareSteps_cons_self] at h
        rw [ih h]
      · obtain ⟨r, s, rankX, rankY, equal⟩ := (compareSteps_cons_eq_ok_iff same).1 h
        exact absurd (eq_of_compare_siblingRank rankX rankY equal) same

/-- The order of three ways is settled where the first two of them part. -/
theorem compareSteps_trans (h : a.compareSteps owner xs ys = .ok .lt)
    (h' : a.compareSteps owner ys zs = .ok .lt) : a.compareSteps owner xs zs = .ok .lt := by
  induction ys generalizing owner xs zs with
  | nil =>
    cases xs with
    | nil => cases h
    | cons x xs => cases h
  | cons y ys ih =>
    cases zs with
    | nil => cases h'
    | cons z zs =>
      cases xs with
      | nil => rfl
      | cons x xs =>
        by_cases left : x = y
        · subst left
          by_cases right : x = z
          · subst right
            rw [compareSteps_cons_self] at h h' ⊢
            exact ih h h'
          · exact (compareSteps_cons_eq_ok_iff right).2 ((compareSteps_cons_eq_ok_iff right).1 h')
        · by_cases right : y = z
          · subst right
            exact (compareSteps_cons_eq_ok_iff left).2 ((compareSteps_cons_eq_ok_iff left).1 h)
          · obtain ⟨r, s, rankX, rankY, before⟩ := (compareSteps_cons_eq_ok_iff left).1 h
            obtain ⟨s', t, rankY', rankZ, after⟩ := (compareSteps_cons_eq_ok_iff right).1 h'
            cases rankY.symm.trans rankY'
            have less : r.compare t = .lt := Std.TransCmp.lt_trans before after
            have apart : x ≠ z := ne_of_compare_siblingRank rankX rankZ less
            exact (compareSteps_cons_eq_ok_iff apart).2 ⟨r, t, rankX, rankZ, less⟩

/-! ## Ways -/

theorem getLastD_of_descentOnto {below : List NodeId} {lineage : Lineage}
    (h : descentOnto below lineage = .ok w) :
    w.steps.getLastD w.root = below.getLastD lineage.first := by
  induction lineage generalizing below with
  | top id node => cases h; rfl
  | missing id => cases h
  | step id node above ih => rw [ih h, List.getLastD_cons, Lineage.first]

/-- A way ends at the node it was asked for. -/
theorem getLastD_steps (h : a.descent x = .ok w) : w.steps.getLastD w.root = x := by
  rw [getLastD_of_descentOnto h, lineage, first_lineageWithin]
  rfl

theorem find?_root_of_descentOnto {below : List NodeId} {fuel : Nat}
    (h : descentOnto below (a.lineageWithin fuel x) = .ok w) : a.find? w.root = some w.node := by
  induction fuel generalizing below x with
  | zero => cases h
  | succ fuel ih =>
    rw [lineageWithin] at h
    cases found : a.find? x with
    | none =>
      rw [found] at h
      cases h
    | some node =>
      simp only [found] at h
      cases owned : node.parent with
      | none =>
        rw [owned] at h
        cases h
        exact found
      | some owner =>
        rw [owned] at h
        exact ih h

/-- A way starts at a live root. -/
theorem find?_root (h : a.descent x = .ok w) : a.find? w.root = some w.node :=
  find?_root_of_descentOnto h

/-- The order of the nodes that two ways lead to. -/
def compareWays (a : Arena) (v w : Descent) : Except TreeError (Option Ordering) :=
  if v.root = w.root then some <$> a.compareSteps v.root v.steps w.steps else .ok (compareTrees v w)

theorem compareOrder_self {answer : Option Ordering} :
    a.compareOrder x x = .ok answer ↔ answer = some .eq ∧ a.contains x = true := by
  rw [compareOrder, if_pos rfl]
  simp only [bind_eq_ok_iff, discard_eq_ok_iff, pure_eq_ok_iff, get_eq_ok_iff, contains_iff]
  constructor
  · rintro ⟨_, live, rfl⟩
    exact ⟨rfl, live⟩
  · rintro ⟨rfl, live⟩
    exact ⟨⟨⟩, live, rfl⟩

theorem compareOrder_eq_ok_iff {answer : Option Ordering} (apart : x ≠ y) :
    a.compareOrder x y = .ok answer ↔ ∃ v w,
      a.descent x = .ok v ∧ a.descent y = .ok w ∧ a.compareWays v w = .ok answer := by
  have ways : ∀ v w : Descent, (if v.root = w.root then
      (do return some (← a.compareSteps v.root v.steps w.steps)) else return compareTrees v w)
      = a.compareWays v w := by
    intro v w
    rw [compareWays]
    rfl
  rw [compareOrder, if_neg apart]
  simp only [bind_eq_ok_iff, ways, exists_and_left]

/-! ## Trees -/

theorem compareTrees_eq_some_iff : compareTrees v w = some o ↔ ∃ d e,
    v.node.document? = some d ∧ w.node.document? = some e ∧
      (compare d.index e.index).then (compare v.root.index w.root.index) = o := by
  rw [compareTrees]
  cases v.node.document? with
  | none => simp
  | some d =>
    cases w.node.document? with
    | none => simp
    | some e => simp

theorem compareTrees_swap : compareTrees w v = (compareTrees v w).map Ordering.swap := by
  rw [compareTrees, compareTrees]
  cases v.node.document? with
  | none => cases w.node.document? <;> rfl
  | some d =>
    cases w.node.document? with
    | none => rfl
    | some e => simp [Ordering.swap_then, Nat.compare_swap]

theorem compareTrees_eq_lt_iff : compareTrees v w = some .lt ↔ ∃ d e,
    v.node.document? = some d ∧ w.node.document? = some e ∧
      (d.index < e.index ∨ d.index = e.index ∧ v.root.index < w.root.index) := by
  rw [compareTrees_eq_some_iff]
  simp only [Ordering.then_eq_lt, Nat.compare_eq_lt, Nat.compare_eq_eq]

theorem compareTrees_trans (h : compareTrees v w = some .lt) (h' : compareTrees w u = some .lt) :
    compareTrees v u = some .lt := by
  obtain ⟨d, e, documentV, documentW, before⟩ := compareTrees_eq_lt_iff.1 h
  obtain ⟨e', f, documentW', documentU, after⟩ := compareTrees_eq_lt_iff.1 h'
  cases documentW.symm.trans documentW'
  exact compareTrees_eq_lt_iff.2 ⟨d, f, documentV, documentU, by omega⟩

/-- Trees in one place have one root. -/
theorem root_eq_of_compareTrees (h : compareTrees v w = some .eq) : v.root = w.root := by
  obtain ⟨d, e, _, _, same⟩ := compareTrees_eq_some_iff.1 h
  rw [Ordering.then_eq_eq, Nat.compare_eq_eq, Nat.compare_eq_eq] at same
  obtain ⟨⟨i⟩, _, _⟩ := v
  obtain ⟨⟨j⟩, _, _⟩ := w
  exact congrArg NodeId.mk same.2

/-! ## Two ways -/

/-- Two ways lead into one tree, or both into documents. -/
def Descent.Comparable (v w : Descent) : Prop :=
  v.root = w.root ∨ v.node.document?.isSome = true ∧ w.node.document?.isSome = true

theorem compareWays_of_root_eq (same : v.root = w.root) :
    a.compareWays v w = some <$> a.compareSteps v.root v.steps w.steps := if_pos same

theorem compareWays_of_root_ne (apart : v.root ≠ w.root) :
    a.compareWays v w = .ok (compareTrees v w) := if_neg apart

theorem compareWays_swap {answer : Option Ordering} (h : a.compareWays v w = .ok answer) :
    a.compareWays w v = .ok (answer.map Ordering.swap) := by
  by_cases same : v.root = w.root
  · rw [compareWays_of_root_eq same] at h
    obtain ⟨o, steps, rfl⟩ := map_eq_ok_iff.1 h
    rw [compareWays_of_root_eq same.symm, ← same, compareSteps_swap steps]
    rfl
  · rw [compareWays_of_root_ne same] at h
    cases h
    rw [compareWays_of_root_ne (Ne.symm same), compareTrees_swap]

theorem isSome_of_compareWays {answer : Option Ordering} (h : a.compareWays v w = .ok answer) :
    answer.isSome = true ↔ v.Comparable w := by
  by_cases same : v.root = w.root
  · rw [compareWays_of_root_eq same] at h
    obtain ⟨o, _, rfl⟩ := map_eq_ok_iff.1 h
    exact ⟨fun _ => Or.inl same, fun _ => rfl⟩
  · rw [compareWays_of_root_ne same] at h
    cases h
    rw [Descent.Comparable, or_iff_right same, compareTrees]
    cases v.node.document? <;> cases w.node.document? <;> simp

section Rooted

variable (rootV : a.find? v.root = some v.node) (rootW : a.find? w.root = some w.node)
variable (rootU : a.find? u.root = some u.node)
include rootV rootW

theorem node_eq_of_root_eq (same : v.root = w.root) : v.node = w.node := by
  rw [same, rootW] at rootV
  exact (Option.some.inj rootV).symm

theorem compareTrees_ne_lt (same : v.root = w.root) : compareTrees v w ≠ some .lt := by
  intro h
  obtain ⟨d, e, documentV, documentW, before⟩ := compareTrees_eq_lt_iff.1 h
  rw [node_eq_of_root_eq rootV rootW same] at documentV
  cases documentV.symm.trans documentW
  rw [same] at before
  omega

include rootU

theorem compareWays_trans (h : a.compareWays v w = .ok (some .lt))
    (h' : a.compareWays w u = .ok (some .lt)) : a.compareWays v u = .ok (some .lt) := by
  by_cases left : v.root = w.root
  · have nodes := node_eq_of_root_eq rootV rootW left
    by_cases right : w.root = u.root
    · rw [compareWays_of_root_eq left] at h
      rw [compareWays_of_root_eq right, ← left] at h'
      obtain ⟨_, first, less⟩ := map_eq_ok_iff.1 h
      obtain ⟨_, second, less'⟩ := map_eq_ok_iff.1 h'
      cases less
      cases less'
      rw [compareWays_of_root_eq (left.trans right), compareSteps_trans first second]
      rfl
    · rw [compareWays_of_root_ne right] at h'
      rw [compareWays_of_root_ne (left ▸ right), compareTrees, left, nodes]
      exact h'
  · rw [compareWays_of_root_ne left] at h
    by_cases right : w.root = u.root
    · have nodes := node_eq_of_root_eq rootW rootU right
      rw [compareWays_of_root_ne (right ▸ left), compareTrees, ← right, ← nodes]
      exact h
    · rw [compareWays_of_root_ne right] at h'
      have less := compareTrees_trans (Except.ok.inj h) (Except.ok.inj h')
      have apart : v.root ≠ u.root := fun same => compareTrees_ne_lt rootV rootU same less
      rw [compareWays_of_root_ne apart, less]

theorem Descent.Comparable.trans (left : v.Comparable w) (right : w.Comparable u) :
    v.Comparable u := by
  rcases left with same | ⟨documentV, documentW⟩
  · rcases right with same' | ⟨documentW, documentU⟩
    · exact Or.inl (same.trans same')
    · rw [← node_eq_of_root_eq rootV rootW same] at documentW
      exact Or.inr ⟨documentW, documentU⟩
  · rcases right with same' | ⟨_, documentU⟩
    · rw [node_eq_of_root_eq rootW rootU same'] at documentW
      exact Or.inr ⟨documentV, documentW⟩
    · exact Or.inr ⟨documentV, documentU⟩

end Rooted

/-! ## The laws -/

theorem compareOrder_swap {answer : Option Ordering} (h : a.compareOrder x y = .ok answer) :
    a.compareOrder y x = .ok (answer.map Ordering.swap) := by
  by_cases same : x = y
  · subst same
    obtain ⟨rfl, live⟩ := compareOrder_self.1 h
    exact compareOrder_self.2 ⟨rfl, live⟩
  · obtain ⟨v, w, wayX, wayY, ways⟩ := (compareOrder_eq_ok_iff same).1 h
    exact (compareOrder_eq_ok_iff (Ne.symm same)).2 ⟨w, v, wayY, wayX, compareWays_swap ways⟩

theorem eq_of_compareOrder (h : a.compareOrder x y = .ok (some .eq)) : x = y := by
  by_cases same : x = y
  · exact same
  · obtain ⟨v, w, wayX, wayY, ways⟩ := (compareOrder_eq_ok_iff same).1 h
    by_cases roots : v.root = w.root
    · rw [compareWays_of_root_eq roots] at ways
      obtain ⟨_, steps, equal⟩ := map_eq_ok_iff.1 ways
      cases equal
      rw [← getLastD_steps wayX, ← getLastD_steps wayY, eq_of_compareSteps steps, roots]
    · rw [compareWays_of_root_ne roots] at ways
      exact absurd (root_eq_of_compareTrees (Except.ok.inj ways)) roots

theorem ne_of_compareOrder (h : a.compareOrder x y = .ok (some .lt)) : x ≠ y := by
  intro same
  subst same
  cases (compareOrder_self.1 h).1

theorem compareOrder_trans (h : a.compareOrder x y = .ok (some .lt))
    (h' : a.compareOrder y z = .ok (some .lt)) : a.compareOrder x z = .ok (some .lt) := by
  have apart : x ≠ z := by
    intro same
    subst same
    have back := compareOrder_swap h
    rw [h'] at back
    cases back
  obtain ⟨v, w, wayX, wayY, ways⟩ := (compareOrder_eq_ok_iff (ne_of_compareOrder h)).1 h
  obtain ⟨w', u, wayY', wayZ, ways'⟩ := (compareOrder_eq_ok_iff (ne_of_compareOrder h')).1 h'
  cases wayY.symm.trans wayY'
  have less := compareWays_trans (find?_root wayX) (find?_root wayY) (find?_root wayZ) ways ways'
  exact (compareOrder_eq_ok_iff apart).2 ⟨v, u, wayX, wayZ, less⟩

theorem isSome_compareOrder_trans {first second third : Option Ordering}
    (h : a.compareOrder x y = .ok first) (h' : a.compareOrder y z = .ok second)
    (h'' : a.compareOrder x z = .ok third) (comparable : first.isSome = true)
    (comparable' : second.isSome = true) : third.isSome = true := by
  by_cases xz : x = z
  · subst xz
    rw [(compareOrder_self.1 h'').1]
    rfl
  by_cases xy : x = y
  · subst xy
    cases h'.symm.trans h''
    exact comparable'
  by_cases yz : y = z
  · subst yz
    cases h.symm.trans h''
    exact comparable
  obtain ⟨v, w, wayX, wayY, ways⟩ := (compareOrder_eq_ok_iff xy).1 h
  obtain ⟨w', u, wayY', wayZ, ways'⟩ := (compareOrder_eq_ok_iff yz).1 h'
  obtain ⟨v', u', wayX', wayZ', ways''⟩ := (compareOrder_eq_ok_iff xz).1 h''
  cases wayX.symm.trans wayX'
  cases wayY.symm.trans wayY'
  cases wayZ.symm.trans wayZ'
  have left := (isSome_of_compareWays ways).1 comparable
  have right := (isSome_of_compareWays ways').1 comparable'
  exact (isSome_of_compareWays ways'').2
    (left.trans (find?_root wayX) (find?_root wayY) (find?_root wayZ) right)

/-- What holds of the comparison whatever the arena records. -/
structure OrderLaws (a : Arena) : Prop where
  /-- A comparison fails in both directions or in none. -/
  fails : ∀ x y, (∃ e, a.compareOrder x y = .error e) ↔ ∃ e, a.compareOrder y x = .error e
  /-- The answer turns round with the question. -/
  reverses : ∀ x y answer, a.compareOrder x y = .ok answer →
    a.compareOrder y x = .ok (answer.map Ordering.swap)
  /-- Only a node itself stands where it stands. -/
  antisymm : ∀ x y, a.compareOrder x y = .ok (some .eq) → x = y
  /-- What comes before a node comes before all that comes after it. -/
  trans : ∀ x y z, a.compareOrder x y = .ok (some .lt) → a.compareOrder y z = .ok (some .lt) →
    a.compareOrder x z = .ok (some .lt)
  /-- Nodes that can be compared with a third can be compared, unless the lists fail. -/
  connects : ∀ x y z o p answer, a.compareOrder x y = .ok (some o) →
    a.compareOrder y z = .ok (some p) → a.compareOrder x z = .ok answer → ∃ q, answer = some q

/-- The comparison is a partial order in every arena. -/
theorem orderLaws (a : Arena) : a.OrderLaws where
  fails := by
    have both : ∀ x y, (∃ e, a.compareOrder x y = .error e) →
        ∃ e, a.compareOrder y x = .error e := by
      intro x y ⟨e, failed⟩
      cases back : a.compareOrder y x with
      | error e' => exact ⟨e', rfl⟩
      | ok answer => exact absurd (failed.symm.trans (compareOrder_swap back)) nofun
    exact fun x y => ⟨both x y, both y x⟩
  reverses _ _ _ h := compareOrder_swap h
  antisymm _ _ h := eq_of_compareOrder h
  trans _ _ _ h h' := compareOrder_trans h h'
  connects x y z o p answer h h' h'' :=
    Option.isSome_iff_exists.1 (isSome_compareOrder_trans h h' h'' rfl rfl)

end XmlTree.Arena
