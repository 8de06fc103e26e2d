/-
  What is done to a store in memory, one event after the other: changes under names, writes through
  partitions that were opened, calls of cursors.

  An event writes to one table, its target, or opens or removes a name (`happen_cases`). So a table
  outlives its name: it is never taken away, and once no name leads to it none ever will
  (`tableId?_happen`), as a name that is opened again leads to a new table.
-/
import RelQuery.Proofs.Store
import Mathlib.Data.List.Induction

namespace RelQuery

namespace Store

/-! ## Events -/

/-- Something that is done to a store in memory. Who opened a partition has its table, and goes on
writing there whatever became of the name. -/
inductive Event where
  /-- A change under a name. -/
  | change (c : Change)
  /-- An entry is put through a partition that was opened. -/
  | put (id : TableId) (key value : Bytes)
  /-- An entry is taken away through a partition that was opened. -/
  | erase (id : TableId) (key : Bytes)
  /-- A cursor is asked for an entry. -/
  | ask (c : Cursor)
  | freshId
  deriving DecidableEq

/-- The store after an event; a change that fails leaves it as it is. -/
def happen (s : Store) : Event → Store
  | .change c => (s.apply c).toOption.getD s
  | .put id key value => s.write id key value
  | .erase id key => (s.visit id key).setTable id ((s.table id).erase key)
  | .ask c => { s with layout := (c.next s).2.2 }
  | .freshId => s.freshId.2

/-- The stores in memory that events lead to. -/
def InMemory (s : Store) : Prop := ∃ events : List Event, s = events.foldl happen .volatile

/-- The table that an event writes to. -/
def Event.target? (s : Store) : Event → Option TableId
  | .change (.put p _ _) | .change (.erase p _) => s.tableId? p
  | .put id _ _ | .erase id _ => some id
  | _ => none

variable {s : Store} {id : TableId} {p : String}

/-- An event writes to its target, opens or removes a partition, or leaves names and tables as
they are. -/
theorem happen_cases (s : Store) (e : Event) :
    (∃ l n b, s.happen e = { s with layout := l, nextId := n, currentBlock := b })
      ∨ (∃ id key t, e.target? s = some id ∧ s.happen e = (s.visit id key).setTable id t)
      ∨ (∃ p, s.happen e = s.create p)
      ∨ ∃ p, s.happen e = { s with partitions := s.partitions.erase p } := by
  cases e with
  | put id key value => exact .inr (.inl ⟨id, key, _, rfl, rfl⟩)
  | erase id key => exact .inr (.inl ⟨id, key, _, rfl, rfl⟩)
  | ask c => exact .inl ⟨_, s.nextId, s.currentBlock, rfl⟩
  | freshId => exact .inl ⟨s.layout, _, _, rfl⟩
  | change c =>
    cases hc : s.apply c with
    | error e =>
      refine .inl ⟨s.layout, s.nextId, s.currentBlock, ?_⟩
      rw [happen, hc]
      rfl
    | ok s' =>
      have hs' : s.happen (.change c) = s' := by
        rw [happen, hc]
        rfl
      rw [hs']
      cases c with
      | create p =>
        cases hc
        exact .inr (.inr (.inl ⟨p, rfl⟩))
      | put p key value =>
        obtain ⟨id, hid, hc⟩ := exists_of_bind_eq_ok hc
        cases hc
        exact .inr (.inl ⟨id, key, _, openTable_eq_ok_iff.1 hid, rfl⟩)
      | erase p key =>
        obtain ⟨id, hid, hc⟩ := exists_of_bind_eq_ok hc
        cases hc
        exact .inr (.inl ⟨id, key, _, openTable_eq_ok_iff.1 hid, rfl⟩)
      | remove p =>
        have hc : s.remove p = .ok s' := hc
        unfold remove at hc
        split at hc
        · cases hc
        · obtain ⟨id, -, hc⟩ := exists_of_bind_eq_ok hc
          cases hc
          exact .inr (.inr (.inr ⟨p, rfl⟩))

theorem engine_happen (s : Store) (e : Event) : (s.happen e).engine = s.engine := by
  obtain ⟨l, n, b, h⟩ | ⟨id, key, t, -, h⟩ | ⟨p, h⟩ | ⟨p, h⟩ := happen_cases s e
  · rw [h]
  · rw [h]
    exact engine_visit s id key
  · rw [h]
    unfold create
    split <;> rfl
  · rw [h]

/-! ## Names -/

/-- But for one that opens a partition, an event leaves the number of tables, and all names that are
there then were there before. -/
theorem names_happen (s : Store) (e : Event) :
    (∃ p, s.happen e = s.create p)
      ∨ (s.happen e).tables.length = s.tables.length
        ∧ ∀ q id, (s.happen e).tableId? q = some id → s.tableId? q = some id := by
  obtain ⟨l, n, b, h⟩ | ⟨id, key, t, -, h⟩ | hcreate | ⟨p, h⟩ := happen_cases s e
  · rw [h]
    exact .inr ⟨rfl, fun q id hq => hq⟩
  · rw [h]
    refine .inr ⟨?_, fun q id' hq => ?_⟩
    · rw [setTable, List.length_set, tables_visit]
    · have hsame : ((s.visit id key).setTable id t).tableId? q = s.tableId? q :=
        congrArg (SortedMap.find? · q) (partitions_visit s id key)
      rwa [hsame] at hq
  · exact .inl hcreate
  · rw [h]
    refine .inr ⟨rfl, fun q id hq => ?_⟩
    have hfind : (if p = q then none else s.tableId? q) = some id :=
      (SortedMap.find?_erase ..).symm.trans hq
    split at hfind
    · cases hfind
    · exact hfind

/-- A name that is opened leads where it did, or to a new table. -/
theorem tableId?_create {q : String} (h : (s.create p).tableId? q = some id) :
    s.tableId? q = some id ∨ id = s.tables.length := by
  unfold create at h
  split at h
  · exact .inl h
  · have hfind : (if p = q then some s.tables.length else s.tableId? q) = some id :=
      (SortedMap.find?_insert ..).symm.trans h
    split at hfind
    · exact .inr (Option.some.inj hfind).symm
    · exact .inl hfind

/-- After an event only those names lead to an old table that did before. -/
theorem tableId?_happen (hid : id < s.tables.length) {e : Event} {q : String}
    (h : (s.happen e).tableId? q = some id) : s.tableId? q = some id := by
  obtain ⟨p, he⟩ | ⟨-, hnames⟩ := names_happen s e
  · rw [he] at h
    rcases tableId?_create h with h | rfl
    · exact h
    · exact absurd hid (Nat.lt_irrefl _)
  · exact hnames q id h

/-- Tables are never taken away. -/
theorem length_tables_happen (s : Store) (e : Event) :
    s.tables.length ≤ (s.happen e).tables.length := by
  obtain ⟨p, he⟩ | ⟨hlength, -⟩ := names_happen s e
  · rw [he]
    unfold create
    split
    · exact Nat.le_refl _
    · simp
  · exact Nat.le_of_eq hlength.symm

theorem Sound.happen (hs : s.Sound) (e : Event) : (s.happen e).Sound := by
  obtain ⟨p, he⟩ | ⟨hlength, hnames⟩ := names_happen s e
  · rw [he]
    exact (turns_create hs p).sound
  · refine ⟨fun q id hq => ?_, fun q q' id hq hq' => ?_⟩
    · rw [hlength]
      exact hs.bounded q id (hnames q id hq)
    · exact hs.distinct q q' id (hnames q id hq) (hnames q' id hq')

theorem InMemory.sound (h : s.InMemory) : s.engine = .volatile ∧ s.Sound := by
  obtain ⟨events, rfl⟩ := h
  induction events using List.reverseRecOn with
  | nil => exact ⟨rfl, sound_volatile⟩
  | append_singleton events e ih =>
    rw [List.foldl_append]
    exact ⟨(engine_happen _ e).trans ih.1, ih.2.happen e⟩

/-! ## Tables -/

/-- Only its target changes in an event. -/
theorem table_happen (hid : id < s.tables.length) {e : Event} (h : e.target? s ≠ some id) :
    (s.happen e).table id = s.table id := by
  obtain ⟨l, n, b, he⟩ | ⟨id', key, t, htarget, he⟩ | ⟨p, he⟩ | ⟨p, he⟩ := happen_cases s e
  · rw [he]
    rfl
  · rw [he, table, setTable, tables_visit, List.getElem?_set_ne]
    · rfl
    · rintro rfl
      exact h htarget
  · rw [he]
    unfold create
    split
    · rfl
    · rw [table, table, List.getElem?_append_left hid]
  · rw [he]
    rfl

end Store

end RelQuery
