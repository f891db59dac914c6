import XmlTree.Proofs.Creation
import XmlTree.Proofs.Order.Sort
import XmlTree.Proofs.Snapshot

/-!
# Documents in the order of creation

A `History` is a session with a past: the time, when each node of the present arena was
made, and the snapshots that were taken.  Loading one of these brings back an older arena,
in which later nodes are missing and their identities are free again.  The number of the
next document does not come back with it.

Through all this a later document has a larger number (`History.creationOrder_nexts`).  The
invariant is `Dated`, of the present arena and of all that were saved: documents are
numbered below the next number and made before the present, and larger identities come
with larger numbers and later times.  It does not mind that number and time go on
(`Dated.mono`), which is why a saved arena can be taken up again at any time.
-/

namespace XmlTree

open Snapshot (Value encode decode)

/-! ## Histories -/

/-- A snapshot, and when the nodes in it were made. -/
structure Saved where
  /-- The written arena. -/
  value : Value
  /-- When the nodes of that arena were made. -/
  born : NodeId → Nat

/-- A session with its past. -/
structure History where
  /-- The present arena and the number of the next document. -/
  session : Session
  /-- The present time. -/
  now : Nat
  /-- When the nodes of the present arena were made. -/
  born : NodeId → Nat
  /-- The snapshots that were taken, the earliest first. -/
  saved : List Saved

/-- What happens in a history. -/
inductive Event where
  /-- A command is carried out, successful or not. -/
  | command (command : Command)
  /-- A snapshot is taken. -/
  | save
  /-- A snapshot that was taken before is read, and if it can be, it is the present arena. -/
  | load (i : Nat)
  /-- A document is made in an arena that has nothing to do with this history. -/
  | elsewhere

/-- The times of making after a command.  A node that the command has made was made now. -/
def bornAfter (born : NodeId → Nat) (now : Nat) : Except TreeError Reply → NodeId → Nat
  | .ok (.made id) => Function.update born id now
  | _ => born

namespace History

/-- The history of an empty arena. -/
def start (config : Config) : History := ⟨.start config, 0, fun _ => 0, []⟩

/-- The history after one more event. -/
def next (h : History) : Event → History
  | .command command =>
      let (reply, session) := h.session.run command
      { h with session, now := h.now + 1, born := bornAfter h.born h.now reply }
  | .save => { h with now := h.now + 1, saved := h.saved ++ [⟨encode h.session.arena, h.born⟩] }
  | .load i =>
      match h.saved[i]?.bind fun saved => (decode saved.value).map (·, saved.born) with
      | some (arena, born) =>
          { h with session := h.session.restore arena, now := h.now + 1, born }
      | none => { h with now := h.now + 1 }
  | .elsewhere =>
      { h with session := ⟨h.session.arena, h.session.nextDocument + 1⟩, now := h.now + 1 }

/-- The history after a list of events. -/
def nexts (h : History) (events : List Event) : History := events.foldl next h

end History

/-- The number of the next document does not go back. -/
theorem Session.nextDocument_le_run (s : Session) (command : Command) :
    s.nextDocument ≤ (s.run command).2.nextDocument := by
  simp only [run]
  split
  next document => exact Nat.le_succ _
  next other => exact Nat.le_refl _

namespace Arena

variable {a b : Arena} {region : Set NodeId} {born : NodeId → Nat} {number number' now now' : Nat}
variable {d e x y : NodeId} {j k : Nat} {kind : NodeKind} {ids sorted : List NodeId}

/-! ## Numbers of documents -/

theorem documentIndex_eq_ok_iff : a.documentIndex d = .ok k ↔
    ∃ data, a.document d = .ok data ∧ data.index = k := by
  simp only [documentIndex, bind_eq_ok_iff, pure_eq_ok_iff]

theorem contains_of_documentIndex (numbered : a.documentIndex d = .ok k) : a.contains d = true := by
  obtain ⟨data, document, _⟩ := documentIndex_eq_ok_iff.1 numbered
  obtain ⟨node, found, _⟩ := document_eq_ok_iff.1 document
  exact contains_iff.2 ⟨node, found⟩

/-- The number of a document is in its core. -/
theorem Spares.documentIndex (spares : a.Spares region b) (numbered : b.documentIndex d = .ok k) :
    a.documentIndex d = .ok k := by
  obtain ⟨data', document, rfl⟩ := documentIndex_eq_ok_iff.1 numbered
  obtain ⟨node', found', kind'⟩ := document_eq_ok_iff.1 document
  obtain ⟨⟨_, _, kind⟩, found, same⟩ := spares.core d node' found'
  rw [kind'] at same
  cases kind with
  | document data =>
    have index := congrArg DocumentData.index (NodeKind.document.inj same)
    exact documentIndex_eq_ok_iff.2 ⟨data, document_eq_ok_iff.2 ⟨_, found, rfl⟩, index.symm⟩
  | _ => cases same

theorem documentIndex_push (numbered : (a.push kind).documentIndex d = .ok k) :
    a.documentIndex d = .ok k ∨
      d = a.nextId ∧ ∃ data, kind = .document data ∧ data.index = k := by
  obtain ⟨data, document, rfl⟩ := documentIndex_eq_ok_iff.1 numbered
  obtain ⟨node, found, document⟩ := document_eq_ok_iff.1 document
  rw [find?_push] at found
  split at found
  next new =>
    cases found
    exact .inr ⟨new.symm, data, document, rfl⟩
  next old =>
    exact .inl (documentIndex_eq_ok_iff.2 ⟨data, document_eq_ok_iff.2 ⟨node, found, document⟩, rfl⟩)

/-! ## Dated arenas -/

/-- The documents of an arena have numbers below the next one and were made before now.
Larger identities come with larger numbers and later times. -/
structure Dated (a : Arena) (born : NodeId → Nat) (number now : Nat) : Prop where
  /-- The arena is sound. -/
  sound : a.Sound
  /-- Documents are of the past. -/
  past : ∀ d k, a.documentIndex d = .ok k → k < number ∧ born d < now
  /-- Identities, numbers and times go up together. -/
  ascending : ∀ d e j k, a.documentIndex d = .ok j → a.documentIndex e = .ok k →
    d.index < e.index → j < k ∧ born d < born e

/-- What is of the past stays so. -/
theorem Dated.mono (dated : a.Dated born number now) (later : number ≤ number')
    (after : now ≤ now') : a.Dated born number' now' where
  sound := dated.sound
  past d k numbered :=
    have past := dated.past d k numbered
    ⟨past.1.trans_le later, past.2.trans_le after⟩
  ascending := dated.ascending

theorem Dated.spares (dated : a.Dated born number now) (sound : b.Sound)
    (spares : a.Spares region b) : b.Dated born number now where
  sound := sound
  past d k numbered := dated.past d k (spares.documentIndex numbered)
  ascending d e j k numbered numbered' :=
    dated.ascending d e j k (spares.documentIndex numbered) (spares.documentIndex numbered')

/-- A new node comes last. -/
theorem Dated.push (dated : a.Dated born number now) (bare : kind.owned = [])
    (later : number ≤ number')
    (numbers : ∀ data, kind = .document data → data.index = number ∧ number < number') :
    (a.push kind).Dated (Function.update born a.nextId now) number' (now + 1) := by
  have known : ∀ d k, (a.push kind).documentIndex d = .ok k →
      (a.documentIndex d = .ok k ∧ d.index < a.nextId.index ∧
        Function.update born a.nextId now d = born d) ∨
      (d = a.nextId ∧ k = number ∧ number < number' ∧
        Function.update born a.nextId now d = now) := by
    intro d k numbered
    rcases documentIndex_push numbered with old | ⟨rfl, data, document, rfl⟩
    · have before : d.index < a.nextId.index :=
        index_lt_of_contains (contains_of_documentIndex old)
      have other : d ≠ a.nextId := fun same => before.ne (congrArg NodeId.index same)
      exact .inl ⟨old, before, Function.update_of_ne other now born⟩
    · obtain ⟨same, less⟩ := numbers data document
      exact .inr ⟨rfl, same, less, Function.update_self a.nextId now born⟩
  refine ⟨(Change.create kind bare).sound dated.sound, fun d k numbered => ?_,
    fun d e j k numbered numbered' less => ?_⟩
  · rcases known d k numbered with ⟨old, _, time⟩ | ⟨_, rfl, less, time⟩
    · have past := dated.past d k old
      rw [time]
      exact ⟨past.1.trans_le later, past.2.trans (Nat.lt_succ_self now)⟩
    · rw [time]
      exact ⟨less, Nat.lt_succ_self now⟩
  · rcases known d j numbered with ⟨old, before, time⟩ | ⟨rfl, _, _, _⟩
    · rcases known e k numbered' with ⟨old', _, time'⟩ | ⟨_, rfl, _, time'⟩
      · rw [time, time']
        exact dated.ascending d e j k old old' less
      · rw [time, time']
        exact dated.past d j old
    · rcases known e k numbered' with ⟨_, before, _⟩ | ⟨rfl, _, _, _⟩
      · exact absurd (less.trans before) (Nat.lt_irrefl _)
      · exact absurd less (Nat.lt_irrefl _)

/-- A command keeps an arena dated, successful or not. -/
theorem Dated.run {s : Session} (dated : s.arena.Dated born s.nextDocument now)
    (command : Command) :
    (s.run command).2.arena.Dated (bornAfter born now (s.run command).1)
      (s.run command).2.nextDocument (now + 1) := by
  have sound := dated.sound.command s.nextDocument command
  have later := s.nextDocument_le_run command
  have numbers : command.isCreateDocument = true →
      (s.run command).2.nextDocument = s.nextDocument + 1 := fun document => by
    simp only [Session.run, document, if_true]
  generalize (s.run command).2.nextDocument = number' at later numbers ⊢
  show ((command.edit s.nextDocument).outcome s.arena).2.Dated
    (bornAfter born now ((command.edit s.nextDocument).outcome s.arena).1) number' (now + 1)
  cases ran : command.edit s.nextDocument s.arena with
  | error e a' =>
    have same := command.eq_of_error dated.sound.toConsistent s.nextDocument
      (congrArg Prod.fst (Edit.outcome_of_error ran))
    rw [same, Edit.outcome_of_error ran]
    exact dated.mono later (Nat.le_succ now)
  | ok reply a' =>
    rw [Edit.outcome_of_ok ran] at sound ⊢
    cases payload : command.payload? s.nextDocument with
    | none =>
      obtain ⟨nothing, spares⟩ := command.spares payload ran
      have same : bornAfter born now (.ok reply) = born := by
        cases reply with
        | made id => exact absurd rfl (nothing id)
        | _ => rfl
      rw [same]
      exact (dated.spares sound spares).mono later (Nat.le_succ now)
    | some kind =>
      obtain ⟨rfl, spares⟩ := command.makes dated.sound.toConsistent payload ran
      refine (dated.push (command.owned_of_payload? payload) later fun data document => ?_).spares
        sound spares
      obtain ⟨document, index⟩ := command.document_of_payload? (document ▸ payload)
      exact ⟨index, numbers document ▸ Nat.lt_succ_self _⟩

/-! ## What follows for the order -/

/-- Nodes of two documents compare as the numbers of the documents do. -/
theorem Sound.compareOrder_of_documents (h : a.Sound) (first : a.documentIndex d = .ok j)
    (second : a.documentIndex e = .ok k) (less : j < k) (rootX : a.root x = .ok d)
    (rootY : a.root y = .ok e) : a.compareOrder x y = .ok (some .lt) := by
  have apart : d ≠ e := by
    rintro rfl
    exact less.ne (Except.ok.inj (first.symm.trans second))
  obtain ⟨v, w, rfl, rfl, foundX, foundY, order⟩ :=
    compareOrder_of_root_ne h (contains_of_root rootX) (contains_of_root rootY) rootX rootY apart
  obtain ⟨data, document, rfl⟩ := documentIndex_eq_ok_iff.1 first
  obtain ⟨data', document', rfl⟩ := documentIndex_eq_ok_iff.1 second
  rw [order, compareTrees_eq_lt_iff.2 ⟨data, data', (document_eq_ok_iff_of_find? foundX).1 document,
    (document_eq_ok_iff_of_find? foundY).1 document', .inl less⟩]

/-- Nodes of documents compare. -/
theorem Sound.exists_compareOrder_of_documents (h : a.Sound) (first : a.documentIndex d = .ok j)
    (second : a.documentIndex e = .ok k) (rootX : a.root x = .ok d) (rootY : a.root y = .ok e) :
    ∃ o, a.compareOrder x y = .ok (some o) := by
  by_cases same : d = e
  · subst same
    obtain ⟨root, rootX', live, memberX⟩ := h.exists_root (contains_of_root rootX)
    obtain ⟨root', rootY', _, memberY⟩ := h.exists_root (contains_of_root rootY)
    cases rootX.symm.trans rootX'
    cases rootY.symm.trans rootY'
    exact ⟨_, compareOrder_eq_compare_idxOf h live memberX memberY⟩
  · obtain ⟨v, w, rfl, rfl, foundX, foundY, order⟩ :=
      compareOrder_of_root_ne h (contains_of_root rootX) (contains_of_root rootY) rootX rootY same
    obtain ⟨data, document, _⟩ := documentIndex_eq_ok_iff.1 first
    obtain ⟨data', document', _⟩ := documentIndex_eq_ok_iff.1 second
    exact ⟨_, order.trans (congrArg Except.ok (compareTrees_eq_some_iff.2 ⟨data, data',
      (document_eq_ok_iff_of_find? foundX).1 document,
      (document_eq_ok_iff_of_find? foundY).1 document', rfl⟩))⟩

namespace Dated

variable (dated : a.Dated born number now) (first : a.documentIndex d = .ok j)
  (second : a.documentIndex e = .ok k)

include dated first second

/-- Of two documents one has the smaller identity, and with it the smaller number and the
earlier time. -/
theorem earlier_or_later (apart : d ≠ e) :
    (d.index < e.index ∧ j < k ∧ born d < born e) ∨
      (e.index < d.index ∧ k < j ∧ born e < born d) := by
  have other : d.index ≠ e.index := fun same => apart (congrArg NodeId.mk same)
  rcases Nat.lt_or_gt_of_ne other with less | greater
  · exact .inl ⟨less, dated.ascending d e j k first second less⟩
  · exact .inr ⟨greater, dated.ascending e d k j second first greater⟩

/-- A document that was made earlier has the smaller number. -/
theorem lt_of_born (before : born d < born e) : j < k := by
  have apart : d ≠ e := by
    rintro rfl
    exact Nat.lt_irrefl _ before
  rcases dated.earlier_or_later first second apart with ⟨_, less, _⟩ | ⟨_, _, after⟩
  · exact less
  · exact absurd (before.trans after) (Nat.lt_irrefl _)

end Dated

/-- Documents are in the order of their creation. -/
structure CreationOrder (a : Arena) (born : NodeId → Nat) : Prop where
  /-- Different documents have different numbers. -/
  distinct : ∀ d e k, a.documentIndex d = .ok k → a.documentIndex e = .ok k → d = e
  /-- A document with a smaller identity has a smaller number. -/
  identities : ∀ d e j k, a.documentIndex d = .ok j → a.documentIndex e = .ok k →
    d.index < e.index → j < k
  /-- Of two documents one was made before the other. -/
  times : ∀ d e j k, a.documentIndex d = .ok j → a.documentIndex e = .ok k → d ≠ e →
    born d < born e ∨ born e < born d
  /-- What is in the document that was made first comes before what is in the other. -/
  compares : ∀ d e j k x y, a.documentIndex d = .ok j → a.documentIndex e = .ok k →
    born d < born e → a.root x = .ok d → a.root y = .ok e → a.compareOrder x y = .ok (some .lt)
  /-- Nodes of documents can be sorted. -/
  sortable : ∀ ids, (∀ x ∈ ids, ∃ d k, a.root x = .ok d ∧ a.documentIndex d = .ok k) →
    ∃ sorted, a.sortInPlace ids = .ok () sorted
  /-- In a sorted list nothing of the second document stands before anything of the first. -/
  sorts : ∀ ids sorted d e j k, a.sortInPlace ids = .ok () sorted →
    a.documentIndex d = .ok j → a.documentIndex e = .ok k → born d < born e →
      sorted.Perm ids ∧ sorted.Pairwise fun y x => ¬ (a.root y = .ok e ∧ a.root x = .ok d)

theorem Dated.sorts (dated : a.Dated born number now) (sorts : a.sortInPlace ids = .ok () sorted)
    (first : a.documentIndex d = .ok j) (second : a.documentIndex e = .ok k)
    (before : born d < born e) :
    sorted.Perm ids ∧ sorted.Pairwise fun y x => ¬ (a.root y = .ok e ∧ a.root x = .ok d) := by
  obtain ⟨perm, ascends⟩ := sortInPlace_sorts dated.sound sorts
  refine ⟨perm, ascends.imp fun {y x} precedes ⟨rootY, rootX⟩ => ?_⟩
  have less := dated.sound.compareOrder_of_documents first second
    (dated.lt_of_born first second before) rootX rootY
  have same := precedes.antisymm (.inl less)
  subst same
  cases (compareOrder_self (x := y)).2 ⟨rfl, contains_of_root rootY⟩ |>.symm.trans less

theorem Dated.creationOrder (dated : a.Dated born number now) : a.CreationOrder born where
  distinct d e k first second := by
    by_contra apart
    rcases dated.earlier_or_later first second apart with ⟨_, less, _⟩ | ⟨_, less, _⟩
    · exact Nat.lt_irrefl k less
    · exact Nat.lt_irrefl k less
  identities d e j k first second less := (dated.ascending d e j k first second less).1
  times d e j k first second apart :=
    (dated.earlier_or_later first second apart).imp (·.2.2) (·.2.2)
  compares d e j k x y first second before rootX rootY :=
    dated.sound.compareOrder_of_documents first second (dated.lt_of_born first second before)
      rootX rootY
  sortable ids documents := by
    refine (sortInPlace_succeeds_iff dated.sound).2
      ⟨fun x member => ?_, fun x memberX y memberY => ?_⟩
    · obtain ⟨_, _, root, _⟩ := documents x member
      exact contains_of_root root
    · obtain ⟨_, _, rootX, first⟩ := documents x memberX
      obtain ⟨_, _, rootY, second⟩ := documents y memberY
      exact dated.sound.exists_compareOrder_of_documents first second rootX rootY
  sorts ids sorted d e j k sorts first second before := dated.sorts sorts first second before

end Arena

/-- A saved value is the written form of a dated arena. -/
def Saved.Dated (s : Saved) (number now : Nat) : Prop :=
  ∃ a, s.value = encode a ∧ a.Dated s.born number now

theorem Saved.Dated.mono {s : Saved} {number number' now now' : Nat} (dated : s.Dated number now)
    (later : number ≤ number') (after : now ≤ now') : s.Dated number' now' := by
  obtain ⟨a, written, past⟩ := dated
  exact ⟨a, written, past.mono later after⟩

/-- What can be read of a saved value is the arena that was written. -/
theorem Saved.Dated.decode {s : Saved} {a : Arena} {number now : Nat} (dated : s.Dated number now)
    (read : Snapshot.decode s.value = some a) : a.Dated s.born number now := by
  obtain ⟨written, value, past⟩ := dated
  rw [value] at read
  obtain ⟨_, rfl⟩ := (Snapshot.readsBack_arena written a).1 read
  exact past

namespace History

variable {h : History}

/-- The present arena and all that were saved are dated, as of now. -/
structure Dated (h : History) : Prop where
  /-- The present arena is. -/
  present : h.session.arena.Dated h.born h.session.nextDocument h.now
  /-- So is all that was saved. -/
  saved : ∀ s ∈ h.saved, s.Dated h.session.nextDocument h.now

theorem dated_start (config : Config) : (start config).Dated where
  present := by
    have none : ∀ d k, (Arena.empty config).documentIndex d ≠ .ok k := by
      intro d k numbered
      obtain ⟨data, document, _⟩ := Arena.documentIndex_eq_ok_iff.1 numbered
      obtain ⟨node, found, kind⟩ := Arena.document_eq_ok_iff.1 document
      rw [Arena.find?_empty] at found
      split at found
      next builtIn =>
        cases found
        cases kind
      next missing => cases found
    exact ⟨Arena.sound_empty config, fun d k numbered => absurd numbered (none d k),
      fun d e j k numbered => absurd numbered (none d j)⟩
  saved := nofun

theorem Dated.next (dated : h.Dated) (event : Event) : (h.next event).Dated := by
  have after : h.now ≤ h.now + 1 := Nat.le_succ _
  have same : h.session.nextDocument ≤ h.session.nextDocument := Nat.le_refl _
  cases event with
  | command command =>
    have later := h.session.nextDocument_le_run command
    exact ⟨dated.present.run command, fun s member => (dated.saved s member).mono later after⟩
  | save =>
    have present := dated.present.mono same after
    refine ⟨present, fun s member => ?_⟩
    rcases List.mem_append.1 member with old | new
    · exact (dated.saved s old).mono same after
    · obtain rfl := List.mem_singleton.1 new
      exact ⟨h.session.arena, rfl, present⟩
  | load i =>
    have saved : ∀ s ∈ h.saved, s.Dated h.session.nextDocument (h.now + 1) := fun s member =>
      (dated.saved s member).mono same after
    rw [History.next]
    split
    next arena born loaded =>
      obtain ⟨s, found, taken⟩ := Option.bind_eq_some_iff.1 loaded
      obtain ⟨a, read, pair⟩ := Option.map_eq_some_iff.1 taken
      cases pair
      exact ⟨(saved s (List.mem_of_getElem? found)).decode read, saved⟩
    next unread => exact ⟨dated.present.mono same after, saved⟩
  | elsewhere =>
    have later : h.session.nextDocument ≤ h.session.nextDocument + 1 := Nat.le_succ _
    exact ⟨dated.present.mono later after, fun s member => (dated.saved s member).mono later after⟩

theorem Dated.nexts (dated : h.Dated) (events : List Event) : (h.nexts events).Dated := by
  induction events generalizing h with
  | nil => exact dated
  | cons event rest ih => exact ih (dated.next event)

/-- Whatever happens after the start, commands, failures, moves and snapshots that are taken
up again, documents stay in the order of their creation. -/
theorem creationOrder_nexts (config : Config) (events : List Event) :
    ((start config).nexts events).session.arena.CreationOrder
      ((start config).nexts events).born :=
  ((dated_start config).nexts events).present.creationOrder

-- The second document is lost with its identity, and the third one gets that identity, but
-- a number and a time of its own.
example :
    let h := (start {}).nexts [.command (.createDocument none), .save,
      .command (.createDocument none), .load 0, .command (.createDocument none)]
    h.session.arena.documentIndex ⟨2⟩ = .ok 3 ∧ h.born ⟨2⟩ = 4 := by
  decide +kernel

end History

end XmlTree
