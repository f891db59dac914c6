import XmlTree.Proofs.Order.Siblings
import XmlTree.Proofs.Order.Ways

/-!
# Order keys

The key of a node holds the ranks along the whole way down to it.  In a sound arena
every live node has a key, and comparing two nodes is comparing their keys
(`compareOrder_eq_of_orderKey`).  Where two ways part, the ranks part as well, since
ranks below one owner tell nodes apart.  What the keys hold beyond that point is never
looked at.
-/

namespace XmlTree

/-! ## The order of keys -/

theorem transCmp_comap {α β : Type} (cmp : β → β → Ordering) [Std.TransCmp cmp] (f : α → β) :
    Std.TransCmp fun x y => cmp (f x) (f y) :=
  letI : Ord β := ⟨cmp⟩
  haveI : Std.TransOrd β := ‹Std.TransCmp cmp›
  inferInstanceAs (Std.TransCmp (compareOn f))

theorem SiblingRank.comparePaths_eq (xs ys : List SiblingRank) :
    comparePaths xs ys = List.compareLex SiblingRank.compare xs ys := by
  induction xs generalizing ys with
  | nil => cases ys <;> rfl
  | cons x xs ih =>
    cases ys with
    | nil => rfl
    | cons y ys => rw [comparePaths, ih, List.compareLex_cons_cons]

instance : Std.TransCmp SiblingRank.comparePaths := by
  rw [funext₂ SiblingRank.comparePaths_eq]
  infer_instance

namespace Arena.OrderKey

theorem compareIndex_eq (i j : Option Nat) : compareIndex i j = Ord.compare i j := by
  cases i <;> cases j <;> rfl

instance : Std.TransCmp compareIndex := by
  rw [funext₂ compareIndex_eq]
  infer_instance

instance : Std.TransCmp compare :=
  haveI := transCmp_comap compareIndex documentIndex
  haveI := transCmp_comap SiblingRank.comparePaths path
  inferInstanceAs (Std.TransCmp (compareLex
    (compareLex (fun x y : OrderKey => compareIndex x.documentIndex y.documentIndex)
      (compareOn fun key => key.root.index))
    (fun x y : OrderKey => SiblingRank.comparePaths x.path y.path)))

/-- Within one tree the paths decide. -/
theorem compare_of_root_eq {k l : OrderKey} (roots : k.root = l.root)
    (indices : k.documentIndex = l.documentIndex) :
    k.compare l = SiblingRank.comparePaths k.path l.path := by
  have index : compareIndex l.documentIndex l.documentIndex = .eq := Std.ReflCmp.compare_self
  have root : Ord.compare l.root.index l.root.index = .eq := Std.ReflCmp.compare_self
  rw [compare, roots, indices, index, root]
  rfl

/-- Between two trees the paths do not matter. -/
theorem compare_of_root_ne {k l : OrderKey} (apart : k.root ≠ l.root) :
    k.compare l = (compareIndex k.documentIndex l.documentIndex).then
      (Ord.compare k.root.index l.root.index) := by
  have decided : Ord.compare k.root.index l.root.index ≠ .eq := by
    rw [Ne, Nat.compare_eq_eq]
    obtain ⟨_, ⟨i⟩, _⟩ := k
    obtain ⟨_, ⟨j⟩, _⟩ := l
    exact fun same => apart (congrArg NodeId.mk same)
  rw [compare]
  cases compareIndex k.documentIndex l.documentIndex with
  | lt => rfl
  | gt => rfl
  | eq =>
    cases order : Ord.compare k.root.index l.root.index with
    | lt => rfl
    | gt => rfl
    | eq => exact absurd order decided

end Arena.OrderKey

namespace Arena

variable {a : Arena} {owner x y : NodeId} {xs ys : List NodeId} {w : Descent}

/-! ## Ranks along a way -/

/-- The ranks of the nodes on a way down from `owner`. -/
def ranksAlong (a : Arena) (owner : NodeId) : List NodeId → Except TreeError (List SiblingRank)
  | [] => return []
  | x :: rest => do
      let rank ← a.siblingRank owner x
      return rank :: (← a.ranksAlong x rest)

theorem ranksAlong_cons_eq_ok_iff {path : List SiblingRank} :
    a.ranksAlong owner (x :: xs) = .ok path ↔ ∃ rank rest,
      a.siblingRank owner x = .ok rank ∧ a.ranksAlong x xs = .ok rest ∧ rank :: rest = path := by
  rw [ranksAlong]
  simp only [bind_eq_ok_iff, pure_eq_ok_iff, exists_and_left]

/-- Ways compare as the ranks along them. -/
theorem compareSteps_eq_comparePaths {path path' : List SiblingRank}
    (ranks : a.ranksAlong owner xs = .ok path) (ranks' : a.ranksAlong owner ys = .ok path') :
    a.compareSteps owner xs ys = .ok (SiblingRank.comparePaths path path') := by
  induction xs generalizing owner ys path path' with
  | nil =>
    cases ranks
    cases ys with
    | nil => cases ranks'; rfl
    | cons y ys =>
      obtain ⟨s, rest, _, _, rfl⟩ := ranksAlong_cons_eq_ok_iff.1 ranks'
      rfl
  | cons x xs ih =>
    obtain ⟨r, rest, rankX, along, rfl⟩ := ranksAlong_cons_eq_ok_iff.1 ranks
    cases ys with
    | nil => cases ranks'; rfl
    | cons y ys =>
      obtain ⟨s, rest', rankY, along', rfl⟩ := ranksAlong_cons_eq_ok_iff.1 ranks'
      rw [SiblingRank.comparePaths]
      by_cases same : x = y
      · subst same
        cases rankX.symm.trans rankY
        have itself : r.compare r = .eq := Std.ReflCmp.compare_self
        rw [compareSteps_cons_self, ih along along', itself]
        rfl
      · refine (compareSteps_cons_eq_ok_iff same).2 ⟨r, s, rankX, rankY, ?_⟩
        cases order : r.compare s with
        | lt => rfl
        | gt => rfl
        | eq => exact absurd (eq_of_compare_siblingRank rankX rankY order) same

/-! ## Keys -/

/-- A lineage has a key when the nodes below its start have ranks. -/
theorem keyOnto_of_traces (h : a.Sound) {lineage : Lineage} (traces : lineage.Traces a)
    {path : List SiblingRank} (ranks : a.ranksAlong lineage.first xs = .ok path)
    (way : descentOnto xs lineage = .ok w) : ∃ path',
      a.ranksAlong w.root w.steps = .ok path' ∧ a.keyOnto path lineage
        = .ok ⟨w.node.document?.map DocumentData.index, w.root, path'⟩ := by
  induction lineage generalizing xs path with
  | top id node =>
    cases way
    exact ⟨path, ranks, rfl⟩
  | missing id => cases way
  | step id node above ih =>
    obtain ⟨rank, ranked⟩ := h.exists_siblingRank traces.owns_first
    have longer : a.ranksAlong above.first (id :: xs) = .ok (rank :: path) :=
      ranksAlong_cons_eq_ok_iff.2 ⟨rank, path, ranked, ranks, rfl⟩
    obtain ⟨path', along, key⟩ := ih traces.2.2 longer way
    refine ⟨path', along, ?_⟩
    rw [keyOnto, ranked]
    exact key

theorem orderKey_of_descent (h : a.Sound) (way : a.descent x = .ok w) : ∃ path,
    a.ranksAlong w.root w.steps = .ok path ∧ a.orderKey x
      = .ok ⟨w.node.document?.map DocumentData.index, w.root, path⟩ :=
  keyOnto_of_traces h (traces_lineage h.founded x) rfl way

theorem orderKey_of_missing (missing : a.find? x = none) : a.orderKey x = .error (.notFound x) := by
  rw [orderKey, lineage_of_missing missing, keyOnto]

/-- The live nodes are those with a key. -/
theorem Sound.exists_orderKey_iff (h : a.Sound) :
    (∃ key, a.orderKey x = .ok key) ↔ a.contains x = true := by
  constructor
  · intro ⟨key, keyed⟩
    cases found : a.find? x with
    | none =>
      rw [orderKey_of_missing found] at keyed
      cases keyed
    | some node => exact contains_iff.2 ⟨node, found⟩
  · intro live
    obtain ⟨w, way⟩ := h.exists_descent live
    obtain ⟨path, _, key⟩ := orderKey_of_descent h way
    exact ⟨_, key⟩

/-- Nodes compare as their keys do. -/
theorem compareOrder_eq_of_orderKey (h : a.Sound) {k l : OrderKey} (keyX : a.orderKey x = .ok k)
    (keyY : a.orderKey y = .ok l) : a.compareOrder x y
      = .ok (if k.comparable l = true then some (k.compare l) else none) := by
  have liveX := h.exists_orderKey_iff.1 ⟨k, keyX⟩
  have liveY := h.exists_orderKey_iff.1 ⟨l, keyY⟩
  by_cases same : x = y
  · subst same
    cases keyX.symm.trans keyY
    have itself : k.compare k = .eq := Std.ReflCmp.compare_self
    have near : k.comparable k = true := by simp [OrderKey.comparable]
    rw [if_pos near, itself]
    exact compareOrder_self.2 ⟨rfl, liveX⟩
  obtain ⟨v, wayX⟩ := h.exists_descent liveX
  obtain ⟨w, wayY⟩ := h.exists_descent liveY
  obtain ⟨path, along, key⟩ := orderKey_of_descent h wayX
  obtain ⟨path', along', key'⟩ := orderKey_of_descent h wayY
  cases keyX.symm.trans key
  cases keyY.symm.trans key'
  refine (compareOrder_eq_ok_iff same).2 ⟨v, w, wayX, wayY, ?_⟩
  by_cases roots : v.root = w.root
  · have nodes := node_eq_of_root_eq (find?_root wayX) (find?_root wayY) roots
    rw [← roots] at along'
    have near : (OrderKey.mk (v.node.document?.map DocumentData.index) v.root path).comparable
        ⟨w.node.document?.map DocumentData.index, w.root, path'⟩ = true := by
      simp [OrderKey.comparable, roots]
    rw [compareWays_of_root_eq roots, compareSteps_eq_comparePaths along along', if_pos near,
      OrderKey.compare_of_root_eq roots (by rw [nodes])]
    rfl
  · rw [compareWays_of_root_ne roots, OrderKey.compare_of_root_ne roots, compareTrees]
    cases v.node.document? with
    | none => simp [OrderKey.comparable, roots]
    | some d =>
      cases w.node.document? with
      | none => simp [OrderKey.comparable, roots]
      | some e => simp [OrderKey.comparable, OrderKey.compareIndex]

end Arena

end XmlTree
