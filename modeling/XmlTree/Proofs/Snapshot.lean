import XmlTree.Proofs.OrderedMap
import XmlTree.Snapshot.Decode
import XmlTree.Snapshot.Encode

/-!
# Reading what was written

A snapshot has a width for each of its numbers: 32 bits for an identity and 64 for
a count.  `Fits` says that the numbers of an arena keep to these widths, and asks
nothing else of it.  The arena may be one that no command leads to.

`ReadsBack` ties a reader to a writer in both directions: what was written is read
again as it was, and is refused where a number is too wide.  There is one such
statement for each way of putting values together, and one for each record.
-/

namespace XmlTree

/-! ## Widths -/

/-- How many values a count can have. -/
def countLimit : Nat := Nat.pow 2 64

/-- Whether an identity has at most 32 bits. -/
def NodeId.Fits (id : NodeId) : Prop := id.index < Arena.slotLimit

/-- Whether the numbers in a payload keep to their widths. -/
structure NodeKind.Fits (kind : NodeKind) : Prop where
  /-- The listed identities do. -/
  owned : ∀ id ∈ kind.owned, id.Fits
  /-- The number of a document does. -/
  number : ∀ data, kind = .document data → data.index < countLimit

/-- Whether the numbers in a node keep to their widths. -/
structure Node.Fits (node : Node) : Prop where
  /-- The identity of the node does. -/
  id : node.id.Fits
  /-- The identity of the owner does. -/
  parent : ∀ owner ∈ node.parent, owner.Fits
  /-- The numbers of the payload do. -/
  kind : node.kind.Fits

/-- Whether the settings keep to their widths. -/
structure Config.Fits (config : Config) : Prop where
  /-- The number of expected slots does. -/
  initialCapacity : config.initialCapacity < countLimit
  /-- The bound on the depth does. -/
  maxDepth : config.maxDepth < countLimit

/-- Whether the numbers in an arena keep to their widths. -/
structure Arena.Fits (a : Arena) : Prop where
  /-- Those in the slots do. -/
  slots : ∀ node, some node ∈ a.slots.toList → node.Fits
  /-- The number of live nodes does. -/
  live : a.live < countLimit
  /-- The settings do. -/
  config : a.config.Fits

namespace Snapshot

/-- A reader gives back what a writer wrote if the numbers in it fit, and nothing
at all if they do not. -/
def ReadsBack {α : Type} (decode : Value → Option α) (encode : α → Value) (fits : α → Prop) :
    Prop :=
  ∀ x y, decode (encode x) = some y ↔ fits x ∧ x = y

/-! ## Parts -/

section Parts

variable {α : Type} {decode : Value → Option α} {encode : α → Value} {fits : α → Prop}

/-- A reader under a constructor. -/
theorem ReadsBack.map_eq_some_iff {β : Type} (back : ReadsBack decode encode fits) (wrap : α → β)
    (x : α) (y : β) : (decode (encode x)).map wrap = some y ↔ fits x ∧ wrap x = y := by
  rw [Option.map_eq_some_iff]
  constructor
  · rintro ⟨_, read, rfl⟩
    obtain ⟨small, rfl⟩ := (back _ _).1 read
    exact ⟨small, rfl⟩
  · rintro ⟨small, rfl⟩
    exact ⟨x, (back _ _).2 ⟨small, rfl⟩, rfl⟩

theorem readsBack_nat (bound : Nat) : ReadsBack (decodeNat bound) encodeNat (· < bound) := by
  intro n m
  show (if n < bound then some n else none) = some m ↔ _
  split
  next less => simp [less]
  next wide => simp [wide]

theorem readsBack_count : ReadsBack decodeCount encodeNat (· < countLimit) :=
  readsBack_nat _

theorem readsBack_id : ReadsBack decodeId encodeId NodeId.Fits := by
  intro id id'
  exact (readsBack_nat _).map_eq_some_iff NodeId.mk id.index id'

theorem readsBack_text : ReadsBack decodeText .str fun _ => True := by
  intro text text'
  rw [decodeText, Option.some_inj, true_and]

/-- What may be absent is written as itself or as null, so its own written form must
not be null. -/
theorem ReadsBack.option (back : ReadsBack decode encode fits) (notNull : ∀ x, encode x ≠ .null) :
    ReadsBack (fun value => nullable decode (some value)) (encodeOption encode)
      fun present => ∀ x ∈ present, fits x := by
  intro present read
  cases present with
  | none => simp [encodeOption, nullable]
  | some x =>
    have reading : nullable decode (some (encode x)) = (decode (encode x)).map some := by
      rw [nullable]
      exact notNull x
    simp only [encodeOption, reading, back.map_eq_some_iff, Option.mem_some_iff, forall_eq']

theorem ReadsBack.list (back : ReadsBack decode encode fits) :
    ReadsBack (decodeList decode) (fun xs => .arr (xs.map encode)) fun xs => ∀ x ∈ xs, fits x := by
  intro xs ys
  show (xs.map encode).mapM decode = some ys ↔ _
  induction xs generalizing ys with
  | nil => simp
  | cons x xs ih =>
    simp only [List.map_cons, List.mapM_cons, Option.bind_eq_bind, Option.bind_eq_some_iff,
      Option.pure_def, Option.some_inj, back _ _, ih, List.forall_mem_cons]
    constructor
    · rintro ⟨_, ⟨small, rfl⟩, _, ⟨smalls, rfl⟩, rfl⟩
      exact ⟨⟨small, smalls⟩, rfl⟩
    · rintro ⟨⟨small, smalls⟩, rfl⟩
      exact ⟨x, ⟨small, rfl⟩, xs, ⟨smalls, rfl⟩, rfl⟩

end Parts

theorem readsBack_text? :
    ReadsBack (fun value => nullable decodeText (some value)) encodeText? fun _ => True := by
  intro text text'
  rw [encodeText?, readsBack_text.option (fun _ => Value.noConfusion) _ _]
  simp

theorem readsBack_ids : ReadsBack (decodeList decodeId) encodeIds fun ids => ∀ id ∈ ids, id.Fits :=
  readsBack_id.list

theorem readsBack_parent : ReadsBack (fun value => nullable decodeId (some value))
    (encodeOption encodeId) fun present => ∀ id ∈ present, id.Fits :=
  readsBack_id.option fun _ => Value.noConfusion

/-! ## Maps -/

/-- A list of pairs in the written form of a map.  A key may come more than once. -/
def encodePairs {κ : Type} (encodeKey : κ → Value) (pairs : List (κ × NodeId)) : Value :=
  .obj [("entries", .arr (pairs.map fun pair => .arr [encodeKey pair.1, encodeId pair.2]))]

section Maps

variable {κ : Type} [DecidableEq κ] {decodeKey : Value → Option κ} {encodeKey : κ → Value}

/-- Pairs are read as the map that they make up. -/
theorem ReadsBack.pairs (back : ReadsBack decodeKey encodeKey fun _ => True)
    (pairs : List (κ × NodeId)) (m : OrderedMap κ NodeId) :
    decodeMap decodeKey (encodePairs encodeKey pairs) = some m ↔
      (∀ pair ∈ pairs, pair.2.Fits) ∧ OrderedMap.ofList pairs = m := by
  have pair : ReadsBack (decodeEntry decodeKey)
      (fun pair => .arr [encodeKey pair.1, encodeId pair.2]) fun pair => pair.2.Fits := by
    intro ⟨key, id⟩ ⟨key', id'⟩
    simp only [decodeEntry, Option.bind_eq_bind, Option.bind_eq_some_iff, Option.pure_def,
      Option.some_inj, back _ _, readsBack_id _ _, true_and]
    constructor
    · rintro ⟨_, rfl, _, ⟨small, rfl⟩, same⟩
      exact ⟨small, same⟩
    · rintro ⟨small, same⟩
      exact ⟨key, rfl, id, ⟨small, rfl⟩, same⟩
  have fields : fields? ["entries"] 0 (encodePairs encodeKey pairs) =
      some [some (.arr (pairs.map fun pair => .arr [encodeKey pair.1, encodeId pair.2]))] := rfl
  simp only [decodeMap, fields, required, Option.bind_eq_bind, Option.bind_some,
    Option.bind_eq_some_iff, pair.list _ _, Option.pure_def, Option.some_inj]
  constructor
  · rintro ⟨_, ⟨small, rfl⟩, made⟩
    exact ⟨small, made⟩
  · rintro ⟨small, made⟩
    exact ⟨pairs, ⟨small, rfl⟩, made⟩

/-- The keys of a map are distinct, so reading it entry by entry replaces nothing. -/
theorem ReadsBack.orderedMap (back : ReadsBack decodeKey encodeKey fun _ => True) :
    ReadsBack (decodeMap decodeKey) (encodeMap encodeKey) fun m => ∀ id ∈ m.values, id.Fits := by
  intro m m'
  show decodeMap decodeKey (encodePairs encodeKey m.entries) = some m' ↔ _
  rw [back.pairs, OrderedMap.ofList_entries]
  simp only [OrderedMap.values, List.forall_mem_map]

end Maps

theorem readsBack_name : ReadsBack decodeName encodeName fun _ => True := by
  intro ⟨uri, localName⟩ name
  have fields : fields? ["namespace", "local"] 0 (encodeName ⟨uri, localName⟩) =
      some [some (encodeText? uri), some (.str localName)] := rfl
  simp only [decodeName, fields, required, Option.bind_eq_bind, Option.bind_some,
    Option.bind_eq_some_iff, readsBack_text? _ _, readsBack_text _ _, Option.pure_def,
    Option.some_inj, true_and, exists_eq_left']

theorem readsBack_attributes :
    ReadsBack decodeAttributes encodeAttributes fun m => ∀ id ∈ m.values, id.Fits :=
  readsBack_name.orderedMap

theorem readsBack_declarations :
    ReadsBack decodeDeclarations encodeDeclarations fun m => ∀ id ∈ m.values, id.Fits :=
  readsBack_text?.orderedMap

/-! ## Nodes -/

theorem readsBack_document : ReadsBack decodeDocument (fun data => encodeContent (.document data))
    fun data => NodeKind.Fits (.document data) := by
  intro ⟨index, uri, children⟩ data
  have fields : fields? ["index", "uri", "children"] 0
      (encodeContent (.document ⟨index, uri, children⟩)) =
      some [some (encodeNat index), some (encodeText? uri), some (encodeIds children)] := rfl
  simp only [decodeDocument, fields, required, Option.bind_eq_bind, Option.bind_some,
    Option.bind_eq_some_iff, readsBack_count _ _, readsBack_text? _ _, readsBack_ids _ _,
    Option.pure_def, Option.some_inj, true_and, exists_eq_left']
  constructor
  · rintro ⟨_, ⟨small, rfl⟩, _, ⟨smalls, rfl⟩, rfl⟩
    exact ⟨⟨smalls, fun _ same => NodeKind.document.inj same ▸ small⟩, rfl⟩
  · rintro ⟨fits, rfl⟩
    exact ⟨index, ⟨fits.number _ rfl, rfl⟩, children, ⟨fits.owned, rfl⟩, rfl⟩

theorem readsBack_element : ReadsBack decodeElement (fun data => encodeContent (.element data))
    fun data => NodeKind.Fits (.element data) := by
  intro ⟨uri, localName, qualifiedName, attributes, declarations, children⟩ data
  have fields : fields? ["namespace_uri", "local_name", "qualified_name", "attributes",
      "namespaces", "children"] 0 (encodeContent (.element
        ⟨uri, localName, qualifiedName, attributes, declarations, children⟩)) =
      some [some (encodeText? uri), some (.str localName), some (.str qualifiedName),
        some (encodeAttributes attributes), some (encodeDeclarations declarations),
        some (encodeIds children)] := rfl
  simp only [decodeElement, fields, required, Option.bind_eq_bind, Option.bind_some,
    Option.bind_eq_some_iff, readsBack_text? _ _, readsBack_text _ _, readsBack_attributes _ _,
    readsBack_declarations _ _, readsBack_ids _ _, Option.pure_def, Option.some_inj, true_and,
    exists_eq_left']
  constructor
  · rintro ⟨_, ⟨smallA, rfl⟩, _, ⟨smallD, rfl⟩, _, ⟨smallC, rfl⟩, rfl⟩
    refine ⟨⟨fun id listed => ?_, fun _ same => NodeKind.noConfusion same⟩, rfl⟩
    rw [NodeKind.owned, List.mem_append, List.mem_append] at listed
    exact listed.elim (Or.elim · (smallA id) (smallD id)) (smallC id)
  · rintro ⟨fits, rfl⟩
    have owned : ∀ id, (id ∈ attributes.values ∨ id ∈ declarations.values) ∨ id ∈ children →
        id.Fits := by
      intro id listed
      refine fits.owned id ?_
      rwa [NodeKind.owned, List.mem_append, List.mem_append]
    exact ⟨attributes, ⟨fun id listed => owned id (.inl (.inl listed)), rfl⟩,
      declarations, ⟨fun id listed => owned id (.inl (.inr listed)), rfl⟩,
      children, ⟨fun id listed => owned id (.inr listed), rfl⟩, rfl⟩

theorem readsBack_attribute : ReadsBack decodeAttribute (fun data => encodeContent (.attr data))
    fun _ => True := by
  intro ⟨uri, localName, qualifiedName, text⟩ data
  have fields : fields? ["namespace_uri", "local_name", "qualified_name", "value"] 0
      (encodeContent (.attr ⟨uri, localName, qualifiedName, text⟩)) =
      some [some (encodeText? uri), some (.str localName), some (.str qualifiedName),
        some (.str text)] := rfl
  simp only [decodeAttribute, fields, required, Option.bind_eq_bind, Option.bind_some,
    Option.bind_eq_some_iff, readsBack_text? _ _, readsBack_text _ _, Option.pure_def,
    Option.some_inj, true_and, exists_eq_left']

theorem readsBack_namespace :
    ReadsBack decodeNamespace (fun data => encodeContent (.namespaceDecl data)) fun _ => True := by
  intro ⟨nsPrefix, uri⟩ data
  have fields : fields? ["prefix", "value"] 0
      (encodeContent (.namespaceDecl ⟨nsPrefix, uri⟩)) =
      some [some (encodeText? nsPrefix), some (.str uri)] := rfl
  simp only [decodeNamespace, fields, required, Option.bind_eq_bind, Option.bind_some,
    Option.bind_eq_some_iff, readsBack_text? _ _, readsBack_text _ _, Option.pure_def,
    Option.some_inj, true_and, exists_eq_left']

/-- A payload that lists nothing and has no number fits. -/
theorem fits_of_owned_eq_nil {kind : NodeKind} (nothing : kind.owned = [])
    (notDocument : kind.type ≠ .document) : kind.Fits where
  owned id listed := by rw [nothing] at listed; exact absurd listed List.not_mem_nil
  number _ same := absurd (congrArg NodeKind.type same) notDocument

theorem readsBack_kind : ReadsBack decodeKind encodeKind NodeKind.Fits := by
  intro kind kind'
  cases kind with
  | document data =>
    have reading : decodeKind (encodeKind (.document data)) =
      (decodeDocument (encodeContent (.document data))).map .document := rfl
    rw [reading, readsBack_document.map_eq_some_iff]
  | element data =>
    have reading : decodeKind (encodeKind (.element data)) =
      (decodeElement (encodeContent (.element data))).map .element := rfl
    rw [reading, readsBack_element.map_eq_some_iff]
  | attr data =>
    have reading : decodeKind (encodeKind (.attr data)) =
      (decodeAttribute (encodeContent (.attr data))).map .attr := rfl
    have fits : NodeKind.Fits (.attr data) := fits_of_owned_eq_nil rfl nofun
    rw [reading, readsBack_attribute.map_eq_some_iff, true_and, and_iff_right fits]
  | namespaceDecl data =>
    have reading : decodeKind (encodeKind (.namespaceDecl data)) =
      (decodeNamespace (encodeContent (.namespaceDecl data))).map .namespaceDecl := rfl
    have fits : NodeKind.Fits (.namespaceDecl data) := fits_of_owned_eq_nil rfl nofun
    rw [reading, readsBack_namespace.map_eq_some_iff, true_and, and_iff_right fits]
  | text value =>
    have reading : decodeKind (encodeKind (.text value)) = some (.text value) := rfl
    have fits : NodeKind.Fits (.text value) := fits_of_owned_eq_nil rfl nofun
    rw [reading, Option.some_inj, and_iff_right fits]
  | comment value =>
    have reading : decodeKind (encodeKind (.comment value)) = some (.comment value) := rfl
    have fits : NodeKind.Fits (.comment value) := fits_of_owned_eq_nil rfl nofun
    rw [reading, Option.some_inj, and_iff_right fits]

theorem readsBack_node : ReadsBack decodeNode encodeNode Node.Fits := by
  intro ⟨id, parent, kind⟩ node
  have fields : fields? ["id", "parent", "kind"] 0 (encodeNode ⟨id, parent, kind⟩) =
      some [some (encodeId id), some (encodeOption encodeId parent), some (encodeKind kind)] := rfl
  simp only [decodeNode, fields, required, Option.bind_eq_bind, Option.bind_some,
    Option.bind_eq_some_iff, readsBack_id _ _, readsBack_parent _ _, readsBack_kind _ _,
    Option.pure_def, Option.some_inj]
  constructor
  · rintro ⟨_, ⟨smallId, rfl⟩, _, ⟨smallParent, rfl⟩, _, ⟨fits, rfl⟩, rfl⟩
    exact ⟨⟨smallId, smallParent, fits⟩, rfl⟩
  · rintro ⟨fits, rfl⟩
    exact ⟨id, ⟨fits.id, rfl⟩, parent, ⟨fits.parent, rfl⟩, kind, ⟨fits.kind, rfl⟩, rfl⟩

/-! ## Arenas -/

theorem readsBack_config : ReadsBack decodeConfig encodeConfig Config.Fits := by
  intro ⟨capacity, depth⟩ config
  have fields : fields? ["initial_capacity", "max_depth"] 0 (encodeConfig ⟨capacity, depth⟩) =
      some [some (encodeNat capacity), some (encodeNat depth)] := rfl
  simp only [decodeConfig, fields, required, Option.bind_eq_bind, Option.bind_some,
    Option.bind_eq_some_iff, readsBack_count _ _, Option.pure_def, Option.some_inj]
  constructor
  · rintro ⟨_, ⟨smallCapacity, rfl⟩, _, ⟨smallDepth, rfl⟩, rfl⟩
    exact ⟨⟨smallCapacity, smallDepth⟩, rfl⟩
  · rintro ⟨fits, rfl⟩
    exact ⟨capacity, ⟨fits.initialCapacity, rfl⟩, depth, ⟨fits.maxDepth, rfl⟩, rfl⟩

/-- The slots, the empty ones among them. -/
theorem readsBack_slots : ReadsBack (decodeList fun slot => nullable decodeNode (some slot))
    (fun slots => .arr (slots.map (encodeOption encodeNode)))
    fun slots => ∀ node, some node ∈ slots → node.Fits := by
  intro slots slots'
  rw [(readsBack_node.option fun _ => Value.noConfusion).list _ _]
  refine and_congr_left fun _ => ⟨fun fits node slot => fits _ slot node rfl, ?_⟩
  rintro fits _ slot node rfl
  exact fits node slot

theorem readsBack_arena : ReadsBack decode encode Arena.Fits := by
  intro ⟨slots, live, config⟩ a
  have fields : fields? ["nodes", "live", "config"] 1 (encode ⟨slots, live, config⟩) =
      some [some (.arr (slots.toList.map (encodeOption encodeNode))), some (encodeNat live),
        some (encodeConfig config)] := rfl
  simp only [decode, fields, required, Option.bind_eq_bind, Option.bind_some,
    Option.bind_eq_some_iff, readsBack_slots _ _, readsBack_count _ _, readsBack_config _ _,
    Option.pure_def, Option.some_inj]
  constructor
  · rintro ⟨_, ⟨fitsSlots, rfl⟩, _, ⟨fitsConfig, rfl⟩, _, ⟨fitsLive, rfl⟩, rfl⟩
    exact ⟨⟨fitsSlots, fitsLive, fitsConfig⟩, rfl⟩
  · rintro ⟨fits, rfl⟩
    exact ⟨slots.toList, ⟨fits.slots, rfl⟩, config, ⟨fits.config, rfl⟩, live, ⟨fits.live, rfl⟩, rfl⟩

/-- Reading a written arena gives that very arena, and does so exactly if the
numbers in the arena keep to their widths. -/
theorem decode_encode_eq_some_iff (a b : Arena) : decode (encode a) = some b ↔ a.Fits ∧ a = b :=
  readsBack_arena a b

end Snapshot

end XmlTree
