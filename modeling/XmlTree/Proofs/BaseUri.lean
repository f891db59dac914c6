import XmlTree.Proofs.Failure.Questions
import XmlTree.Proofs.Views

/-!
# The rule for base addresses

The base address of a node can be said by that of its owner (`HasBase`).  An absolute
`xml:base` is the base address itself, and a relative one is resolved against the base
address of the owner.  A node that states nothing has the base address of its owner.  At
the top of the tree the address of the document decides, and nothing else.

The walk does not come back down to resolve.  It carries along the references that it has
met and resolves them all once it knows where to start.  So what the rule gives for a node
is what the walk goes on with from there, whatever it has met below
(`HasBase.baseAlong_eq`).  With nothing met below, the two are the same.
-/

namespace XmlTree.Arena

variable {a : Arena} {config : Config} {r : Resolver} {id owner x : NodeId} {node : Node}
variable {base : Option String}

/-! ## The rule -/

/-- The base address of a node, by the base address of its owner. -/
inductive HasBase (a : Arena) (r : Resolver) : NodeId → Option String → Prop
  /-- A document has its own address as base, if that is absolute. -/
  | document {id : NodeId} {node : Node} {data : DocumentData} {uri : String}
      (found : a.find? id = some node) (unowned : node.parent = none)
      (holds : node.kind = .document data) (given : data.uri = some uri)
      (absolute : r.isAbsolute uri = true) : HasBase a r id (some uri)
  /-- No other node without an owner has a base, whatever it states. -/
  | undefined {id : NodeId} {node : Node} (found : a.find? id = some node)
      (unowned : node.parent = none)
      (rootless : ∀ data uri, node.kind = .document data → data.uri = some uri →
        r.isAbsolute uri = false) : HasBase a r id none
  /-- What a node states is its base, if that is absolute. -/
  | absolute {id owner : NodeId} {value : String} (owned : a.parent id = .ok (some owner))
      (stated : a.attributeValue? id xmlBase = .ok (some value))
      (absolute : r.isAbsolute value = true) : HasBase a r id (some value)
  /-- A relative reference is resolved against the base of the owner, if there is one. -/
  | relative {id owner : NodeId} {value : String} {base : Option String}
      (owned : a.parent id = .ok (some owner))
      (stated : a.attributeValue? id xmlBase = .ok (some value))
      (relative : r.isAbsolute value = false) (above : HasBase a r owner base) :
      HasBase a r id (base.bind fun base => r.absolutize value base)
  /-- A node that states nothing has the base of its owner. -/
  | inherited {id owner : NodeId} {base : Option String} (owned : a.parent id = .ok (some owner))
      (silent : ∀ value, a.attributeValue? id xmlBase ≠ .ok (some value))
      (above : HasBase a r owner base) : HasBase a r id base

/-! ## What a node states -/

theorem attributeValue?_eq_some_iff {name : ExpandedName} {value : String} :
    a.attributeValue? id name = .ok (some value) ↔ ∃ data x filed, a.element? id = some data ∧
      data.attributes.get? name = some x ∧ a.attributeData x = .ok filed ∧ filed.value = value := by
  rw [attributeValue?, attribute?]
  simp only [bind_eq_ok_iff, pure_eq_ok_iff, element_eq_ok_iff]
  constructor
  · rintro ⟨_, ⟨data, element, rfl⟩, valued⟩
    split at valued
    next x entry =>
      simp only [bind_eq_ok_iff, pure_eq_ok_iff, Option.some_inj] at valued
      obtain ⟨filed, read, same⟩ := valued
      exact ⟨data, x, filed, element, entry, read, same⟩
    next missing => cases valued
  · rintro ⟨data, x, filed, element, entry, read, rfl⟩
    refine ⟨some x, ⟨data, element, entry⟩, ?_⟩
    simp only [read]
    rfl

/-- The walk reads what the attribute says. -/
theorem Consistent.exists_statedBase (h : a.Consistent) (found : a.find? id = some node) :
    ∃ stated, a.statedBase node = .ok stated ∧
      ∀ value, a.attributeValue? id xmlBase = .ok (some value) ↔ stated = some value := by
  simp only [attributeValue?_eq_some_iff, element?_of_find? found, statedBase]
  cases holds : node.element? with
  | none =>
    refine ⟨none, rfl, fun value => iff_of_false ?_ (Option.some_ne_none value).symm⟩
    rintro ⟨_, _, _, ⟨⟩, _⟩
  | some data =>
    cases entry : data.attributes.get? xmlBase with
    | none =>
      refine ⟨none, by simp only [entry]; rfl, fun value =>
        iff_of_false ?_ (Option.some_ne_none value).symm⟩
      rintro ⟨_, x, _, ⟨⟩, listed, _⟩
      cases entry.symm.trans listed
    | some x =>
      obtain ⟨filed, read⟩ := h.exists_attributeData ((element?_of_find? found).trans holds) entry
      refine ⟨some filed.value, by simp only [entry, read]; rfl, fun value => ⟨?_, fun same => ?_⟩⟩
      · rintro ⟨_, y, _, ⟨⟩, listed, readY, rfl⟩
        cases entry.symm.trans listed
        cases read.symm.trans readY
        rfl
      · exact ⟨data, x, filed, rfl, entry, read, Option.some.inj same⟩

/-! ## The walk follows the rule -/

theorem baseAlong_of_silent {above : Lineage} (silent : a.statedBase node = .ok none)
    (pending : List String) :
    a.baseAlong r pending (.step id node above) = a.baseAlong r pending above := by
  rw [baseAlong, silent]
  rfl

theorem baseAlong_of_stated {above : Lineage} {value : String}
    (stated : a.statedBase node = .ok (some value)) (pending : List String) :
    a.baseAlong r pending (.step id node above) = if r.isAbsolute value then
      .ok (r.resolveAll value pending) else a.baseAlong r (value :: pending) above := by
  rw [baseAlong, stated]
  rfl

/-- What the rule gives for a node is what the references met below it are resolved
against. -/
theorem HasBase.baseAlong_eq (h : a.Sound) (rule : a.HasBase r id base)
    (pending : List String) : a.baseAlong r pending (a.lineage id)
      = .ok (base.bind fun base => r.resolveAll base pending) := by
  induction rule generalizing pending with
  | @document id node data uri found unowned holds given absolute =>
    have root : rootBase r node = some uri := by
      rw [rootBase, Node.document?, holds]
      show data.uri.filter r.isAbsolute = some uri
      rw [given, Option.filter_some_pos absolute]
    rw [lineage_of_top found unowned, baseAlong, root]
    rfl
  | @undefined id node found unowned rootless =>
    have root : rootBase r node = none := by
      rw [rootBase, Option.filter_eq_none_iff]
      intro uri given
      obtain ⟨data, holds, given⟩ := Option.bind_eq_some_iff.1 given
      refine Bool.eq_false_iff.1 (rootless data uri ?_ given)
      obtain ⟨_, _, kind⟩ := node
      cases kind <;> cases holds
      rfl
    rw [lineage_of_top found unowned, baseAlong, root]
    rfl
  | @absolute id owner value owned stated absolute =>
    obtain ⟨node, found, named⟩ := parent_eq_ok_iff.1 owned
    obtain ⟨_, read, same⟩ := h.exists_statedBase found
    rw [(same value).1 stated] at read
    rw [lineage_of_owner h.founded found named, baseAlong_of_stated read, if_pos absolute]
    rfl
  | @relative id owner value base owned stated relative above ih =>
    obtain ⟨node, found, named⟩ := parent_eq_ok_iff.1 owned
    obtain ⟨_, read, same⟩ := h.exists_statedBase found
    rw [(same value).1 stated] at read
    rw [lineage_of_owner h.founded found named, baseAlong_of_stated read,
      if_neg (Bool.eq_false_iff.1 relative), ih, Option.bind_assoc]
    rfl
  | @inherited id owner base owned silent above ih =>
    obtain ⟨node, found, named⟩ := parent_eq_ok_iff.1 owned
    obtain ⟨stated, read, same⟩ := h.exists_statedBase found
    have nothing : stated = none :=
      Option.eq_none_iff_forall_ne_some.2 fun value here => silent value ((same value).2 here)
    rw [nothing] at read
    rw [lineage_of_owner h.founded found named, baseAlong_of_silent read, ih]

/-- The rule gives something for every live node. -/
theorem Sound.exists_hasBase (h : a.Sound) (r : Resolver) (live : a.contains id = true) :
    ∃ base, a.HasBase r id base := by
  induction id using h.founded.induction with
  | _ id ih =>
    obtain ⟨node, found⟩ := contains_iff.1 live
    cases owned : node.parent with
    | none =>
      by_cases rooted : ∃ data uri, node.kind = .document data ∧ data.uri = some uri ∧
          r.isAbsolute uri = true
      · obtain ⟨data, uri, holds, given, absolute⟩ := rooted
        exact ⟨_, .document found owned holds given absolute⟩
      · refine ⟨_, .undefined found owned fun data uri holds given => ?_⟩
        exact Bool.eq_false_iff.2 fun absolute => rooted ⟨data, uri, holds, given, absolute⟩
    | some owner =>
      have names : a.parent id = .ok (some owner) := parent_eq_ok_iff.2 ⟨node, found, owned⟩
      have owns : a.Owns owner id := parent_eq_some_iff.1 names
      obtain ⟨base, above⟩ := ih owner owns (contains_iff.2 (h.exists_find?_owner owns))
      obtain ⟨stated, _, same⟩ := h.exists_statedBase found
      cases stated with
      | none =>
        exact ⟨base, .inherited names (fun value valued => nomatch (same value).1 valued) above⟩
      | some value =>
        have valued := (same value).2 rfl
        cases absolute : r.isAbsolute value with
        | true => exact ⟨_, .absolute names valued absolute⟩
        | false => exact ⟨_, .relative names valued absolute above⟩

/-- In every reachable arena a live node has the base address that the rule gives, and the
rule gives no other. -/
theorem Reachable.baseUriWith_hasBase (reachable : Reachable config a) (r : Resolver)
    (live : a.contains id = true) : ∃ base, a.baseUriWith r id = .ok base ∧
      ∀ base', a.HasBase r id base' ↔ base' = base := by
  have walks : ∀ {base}, a.HasBase r id base → a.baseUriWith r id = .ok base := by
    intro base rule
    rw [baseUriWith, rule.baseAlong_eq reachable.sound]
    cases base <;> rfl
  obtain ⟨base, rule⟩ := reachable.sound.exists_hasBase r live
  refine ⟨base, walks rule, fun base' => ⟨fun rule' => ?_, fun same => same ▸ rule⟩⟩
  exact Except.ok.inj ((walks rule').symm.trans (walks rule))

/-- A text in an element with a relative `xml:base`, which lies in another one, in a document
with an address. -/
def nestedBases : Arena :=
  ((Session.start {}).runAll
    [.createDocument (some "/d/"), .createElement none "r", .appendChild ⟨1⟩ ⟨2⟩,
      .addAttribute ⟨2⟩ (some xmlNamespace) "xml:base" "base" "x/", .createElement none "e",
      .appendChild ⟨2⟩ ⟨4⟩, .addAttribute ⟨4⟩ (some xmlNamespace) "xml:base" "base" "y/",
      .createText "t", .appendChild ⟨4⟩ ⟨6⟩]).arena

/-- Takes one address as absolute, and writes a reference behind its base. -/
def plainResolver : Resolver := ⟨(· == "/d/"), fun reference base => some (base ++ reference)⟩

/-- The base address of a text that has two elements and a document above it. -/
theorem baseUriWith_hasBase_of_nesting :
    nestedBases.contains ⟨6⟩ = true ∧
      ∃ base, nestedBases.baseUriWith plainResolver ⟨6⟩ = .ok base ∧
        ∀ base', nestedBases.HasBase plainResolver ⟨6⟩ base' ↔ base' = base :=
  have live := by decide +kernel
  ⟨live, Reachable.baseUriWith_hasBase (Reachable.runAll (s := .start {}) .empty _) _ live⟩

-- The outer reference is resolved first.
example : nestedBases.baseUriWith plainResolver ⟨6⟩ = .ok (some "/d/x/y/") := by decide +kernel

end XmlTree.Arena
