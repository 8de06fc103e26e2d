/-
  Stores as what stands under the names of partitions.

  A name leads to a table by a number; as long as no two names lead to the same one (`Sound`), a
  change under one name leaves what stands under the others (`Turns`). Layouts have no part in
  this.
-/
import RelQuery.Store
import RelQuery.Proofs.Except
import RelQuery.Proofs.SortedMap

namespace RelQuery

/-- The records of a table, in the order of their keys. -/
def Table.records (t : Table) : List Bytes := t.entries.map (·.2)

namespace Store

/-- The table of a partition, if it is there. -/
def table? (s : Store) (partition : String) : Option Table := (s.tableId? partition).map s.table

/-- Names lead to tables that were made, and no two to the same. -/
structure Sound (s : Store) : Prop where
  bounded : ∀ p id, s.tableId? p = some id → id < s.tables.length
  distinct : ∀ p q id, s.tableId? p = some id → s.tableId? q = some id → p = q

/-- The second store is the first one, but for what stands under a name. -/
structure Turns (s s' : Store) (p : String) (t : Option Table) : Prop where
  engine : s'.engine = s.engine
  sound : s'.Sound
  table? : ∀ q, s'.table? q = if p = q then t else s.table? q

variable {s : Store} {p : String}

theorem openTable_eq_ok_iff {id : TableId} : s.openTable p = .ok id ↔ s.tableId? p = some id := by
  unfold openTable
  split <;> simp_all

theorem table?_eq_some_iff {t : Table} :
    s.table? p = some t ↔ ∃ id, s.tableId? p = some id ∧ s.table id = t :=
  Option.map_eq_some_iff

theorem contents_eq_ok_iff_openTable {t : Table} :
    s.contents p = .ok t ↔ ∃ id, s.openTable p = .ok id ∧ s.table id = t := by
  unfold contents
  cases s.openTable p with
  | error e => simp [Except.map]
  | ok id => simp [Except.map]

theorem contents_eq_ok_iff {t : Table} : s.contents p = .ok t ↔ s.table? p = some t := by
  simp only [contents_eq_ok_iff_openTable, openTable_eq_ok_iff, table?_eq_some_iff]

theorem isSome_table? : (s.table? p).isSome = (s.tableId? p).isSome := Option.isSome_map

/-! ## Records -/

/-- In both stores the partition has the same records in the same order, or is not there. -/
def SameRecords (s s' : Store) (p : String) : Prop :=
  (s'.table? p).map Table.records = (s.table? p).map Table.records

section

variable {s' : Store}

theorem SameRecords.openTable_of_error (h : s.SameRecords s' p) {e : Error}
    (he : s.openTable p = .error e) : s'.openTable p = .error e := by
  unfold SameRecords table? at h
  unfold openTable at he ⊢
  cases hid : s.tableId? p with
  | some id => rw [hid] at he; cases he
  | none =>
    rw [hid] at h he
    cases hid' : s'.tableId? p with
    | some id => rw [hid'] at h; cases h
    | none => exact he

theorem SameRecords.openTable_of_ok (h : s.SameRecords s' p) {id : TableId}
    (hid : s.openTable p = .ok id) :
    ∃ id', s'.openTable p = .ok id' ∧ (s'.table id').records = (s.table id).records := by
  rw [openTable_eq_ok_iff] at hid
  unfold SameRecords table? at h
  rw [hid] at h
  cases hid' : s'.tableId? p with
  | none => rw [hid'] at h; cases h
  | some id' =>
    rw [hid'] at h
    exact ⟨id', openTable_eq_ok_iff.2 hid', Option.some.inj h⟩

end

/-! ## Layouts -/

/-- What stands under the names depends on names and tables only. -/
theorem table?_congr {s' : Store} (ht : s'.tables = s.tables) (hp : s'.partitions = s.partitions)
    (p : String) : s'.table? p = s.table? p := by
  have htable : s'.table = s.table := funext fun id => by rw [table, table, ht]
  rw [table?, table?, tableId?, tableId?, hp, htable]

theorem Sound.congr {s' : Store} (hs : s.Sound) (ht : s'.tables = s.tables)
    (hp : s'.partitions = s.partitions) : s'.Sound where
  bounded p id h := by
    simp only [tableId?, hp] at h
    rw [ht]
    exact hs.bounded p id h
  distinct p q id h h' := by
    simp only [tableId?, hp] at h h'
    exact hs.distinct p q id h h'

theorem engine_visit (s : Store) (id : TableId) (key : Bytes) :
    (s.visit id key).engine = s.engine := by
  unfold visit
  split <;> rename_i h <;> simp [h]

theorem visit_eq (s : Store) (id : TableId) (key : Bytes) :
    ∃ l, s.visit id key = { s with layout := l } := by
  unfold visit
  split
  · exact ⟨s.layout, rfl⟩
  · exact ⟨_, rfl⟩

theorem visitFrom_eq (s : Store) (id : TableId) (key : Bytes) (last : Option Bytes) :
    ∃ l, s.visitFrom id key last = { s with layout := l } := by
  unfold visitFrom
  generalize Pages.stops (s.borders id) key last = keys
  induction keys generalizing s with
  | nil => exact ⟨s.layout, rfl⟩
  | cons k keys ih =>
    obtain ⟨l, hl⟩ := s.visit_eq id k
    obtain ⟨l', hl'⟩ := ih { s with layout := l }
    exact ⟨l', by rw [List.foldl_cons, hl, hl']⟩

/-- Reading a partition changes nothing but the layout. -/
theorem walkTo_of_tableId? {id : TableId} (h : s.tableId? p = some id)
    (isLast : Bytes × Bytes → Bool) :
    ∃ l, s.walkTo p isLast = .ok (s.table id, { s with layout := l }) := by
  unfold walkTo
  rw [openTable_eq_ok_iff.2 h]
  obtain ⟨l, hl⟩ := s.visitFrom_eq id [] (((s.table id).entries.find? isLast).map (·.1))
  exact ⟨l, congrArg (fun s' => Except.ok (s.table id, s')) hl⟩

theorem nextId_visit (s : Store) (id : TableId) (key : Bytes) :
    (s.visit id key).nextId = s.nextId := by
  unfold visit
  split <;> rfl

theorem Turns.trans {s' s'' : Store} {t t' : Option Table} (h : s.Turns s' p t)
    (h' : s'.Turns s'' p t') : s.Turns s'' p t' where
  engine := h'.engine.trans h.engine
  sound := h'.sound
  table? q := by
    rw [h'.table?]
    by_cases hpq : p = q
    · rw [if_pos hpq, if_pos hpq]
    · rw [if_neg hpq, if_neg hpq, h.table?, if_neg hpq]

/-- What a changed store turns into is what the store with other counters and layout does. -/
theorem Turns.of_congr {s' s'' : Store} {t : Option Table} (h : s'.Turns s'' p t)
    (he : s'.engine = s.engine) (ht : s'.tables = s.tables) (hp : s'.partitions = s.partitions) :
    s.Turns s'' p t where
  engine := h.engine.trans he
  sound := h.sound
  table? q := by rw [h.table?, table?_congr ht hp]

/-! ## Changes -/

theorem sound_volatile : Sound .volatile where
  bounded p id h := by cases h
  distinct p q id h := by cases h

theorem tableId?_durable (p : String) :
    Store.tableId? .durable p = if builtIn = p then some 0 else none := by
  by_cases hp : builtIn = p <;> simp [durable, tableId?, SortedMap.find?, hp]

theorem sound_durable : Sound .durable where
  bounded p id h := by
    rw [tableId?_durable] at h
    split at h
    · cases h
      exact Nat.one_pos
    · cases h
  distinct p q id h h' := by
    rw [tableId?_durable] at h h'
    split at h <;> split at h'
    · exact (‹builtIn = p›).symm.trans ‹_›
    all_goals simp_all

theorem table_setTable {id : TableId} (t : Table) (h : id < s.tables.length) (id' : TableId) :
    (s.setTable id t).table id' = if id = id' then t else s.table id' := by
  unfold table setTable
  by_cases hid : id = id'
  · subst hid
    simp [h]
  · simp [hid]

theorem turns_setTable {id : TableId} (hs : s.Sound) (h : s.tableId? p = some id) (t : Table) :
    s.Turns (s.setTable id t) p (some t) where
  engine := rfl
  sound := ⟨fun q id' hq => by
    rw [setTable, List.length_set]
    exact hs.bounded q id' hq, hs.distinct⟩
  table? q := by
    by_cases hpq : p = q
    · subst hpq
      rw [if_pos rfl, table?_eq_some_iff]
      refine ⟨id, h, ?_⟩
      rw [table_setTable t (hs.bounded p id h), if_pos rfl]
    · rw [if_neg hpq]
      -- Another name leads to another table, or the store would not be sound.
      have htable : ∀ id', s.tableId? q = some id' → (s.setTable id t).table id' = s.table id' := by
        intro id' hq
        rw [table_setTable t (hs.bounded p id h), if_neg]
        rintro rfl
        exact hpq (hs.distinct p q id h hq)
      exact Option.map_congr htable

/-- Visiting a page before a change has no part in what the change does. -/
theorem turns_setTable_visit {id : TableId} (hs : s.Sound) (h : s.tableId? p = some id)
    (key : Bytes) (t : Table) : s.Turns ((s.visit id key).setTable id t) p (some t) := by
  have ht := tables_visit s id key
  have hp := partitions_visit s id key
  have hid : (s.visit id key).tableId? p = some id := by
    rw [tableId?, hp]
    exact h
  exact (turns_setTable (hs.congr ht hp) hid t).of_congr (engine_visit ..) ht hp

/-- Writing puts an entry into the table of a name. -/
theorem turns_write {id : TableId} (hs : s.Sound) (h : s.tableId? p = some id)
    (key value : Bytes) :
    s.Turns (s.write id key value) p (some ((s.table id).insert key value)) :=
  turns_setTable_visit hs h key _

theorem create_of_isSome {id : TableId} (h : s.tableId? p = some id) : s.create p = s := by
  rw [create, h]

/-- A new partition is an empty table with a number that no name had. -/
theorem turns_create_of_none (hs : s.Sound) (h : s.tableId? p = none) :
    s.Turns (s.create p) p (some .empty) := by
  have hcreate : s.create p = { s with
      tables := s.tables ++ [.empty]
      partitions := s.partitions.insert p s.tables.length } := by rw [create, h]
  have hfind : ∀ q, (s.create p).tableId? q
      = if p = q then some s.tables.length else s.tableId? q := fun q => by
    rw [hcreate, tableId?]
    exact SortedMap.find?_insert ..
  have htables : (s.create p).tables = s.tables ++ [.empty] := by rw [hcreate]
  have hold : ∀ {q id}, s.tableId? q = some id → id ≠ s.tables.length := fun hq heq =>
    Nat.lt_irrefl _ (heq ▸ hs.bounded _ _ hq)
  generalize s.create p = s' at hcreate hfind htables
  refine ⟨by rw [hcreate], ⟨fun q id hq => ?_, fun q q' id hq hq' => ?_⟩, fun q => ?_⟩
  · rw [hfind] at hq
    rw [htables, List.length_append, List.length_singleton]
    by_cases hpq : p = q
    · rw [if_pos hpq] at hq
      cases hq
      exact Nat.lt_succ_self _
    · rw [if_neg hpq] at hq
      exact Nat.lt_succ_of_lt (hs.bounded q id hq)
  · rw [hfind] at hq hq'
    by_cases hpq : p = q <;> by_cases hpq' : p = q'
    · exact hpq.symm.trans hpq'
    · rw [if_pos hpq] at hq
      rw [if_neg hpq'] at hq'
      cases hq
      exact absurd rfl (hold hq')
    · rw [if_neg hpq] at hq
      rw [if_pos hpq'] at hq'
      cases hq'
      exact absurd rfl (hold hq)
    · rw [if_neg hpq] at hq
      rw [if_neg hpq'] at hq'
      exact hs.distinct q q' id hq hq'
  · rw [table?, hfind]
    by_cases hpq : p = q
    · rw [if_pos hpq, if_pos hpq]
      simp [table, htables]
    · rw [if_neg hpq, if_neg hpq]
      refine Option.map_congr fun id hq => ?_
      rw [table, table, htables, List.getElem?_append_left (hs.bounded q id hq)]

/-- A partition that is opened holds what it held, or nothing if it was not there. -/
theorem turns_create (hs : s.Sound) (p : String) :
    s.Turns (s.create p) p (some ((s.table? p).getD .empty)) := by
  cases h : s.tableId? p with
  | some id =>
    rw [create_of_isSome h]
    refine ⟨rfl, hs, fun q => ?_⟩
    by_cases hpq : p = q
    · subst hpq
      simp [table?, h]
    · rw [if_neg hpq]
  | none =>
    rw [table?, h]
    exact turns_create_of_none hs h

theorem exists_put {t : Table} (hs : s.Sound) (h : s.table? p = some t) (key value : Bytes) :
    ∃ s', s.put p key value = .ok s' ∧ s.Turns s' p (some (t.insert key value)) := by
  obtain ⟨id, hid, rfl⟩ := table?_eq_some_iff.1 h
  refine ⟨s.write id key value, ?_, turns_write hs hid key value⟩
  rw [put, openTable_eq_ok_iff.2 hid]
  rfl

theorem exists_erase {t : Table} (hs : s.Sound) (h : s.table? p = some t) (key : Bytes) :
    ∃ s', s.erase p key = .ok s' ∧ s.Turns s' p (some (t.erase key)) := by
  obtain ⟨id, hid, rfl⟩ := table?_eq_some_iff.1 h
  refine ⟨(s.visit id key).setTable id ((s.table id).erase key), ?_, ?_⟩
  · rw [erase, openTable_eq_ok_iff.2 hid]
    rfl
  · exact turns_setTable_visit hs hid key _

/-- A partition can be removed if it is there, but for the one that a durable store keeps. -/
theorem exists_remove {t : Table} (hs : s.Sound) (h : s.table? p = some t)
    (hp : p ≠ builtIn) : ∃ s', s.remove p = .ok s' ∧ s.Turns s' p none := by
  obtain ⟨id, hid, rfl⟩ := table?_eq_some_iff.1 h
  have hfind : ∀ q, (s.partitions.erase p).find? q = if p = q then none else s.tableId? q :=
    fun q => SortedMap.find?_erase ..
  have hold : ∀ {q id}, (s.partitions.erase p).find? q = some id → s.tableId? q = some id := by
    intro q id hq
    rw [hfind] at hq
    split at hq
    · cases hq
    · exact hq
  refine ⟨{ s with partitions := s.partitions.erase p }, ?_, rfl, ⟨fun q id hq => ?_,
    fun q q' id hq hq' => ?_⟩, fun q => ?_⟩
  · rw [remove, if_neg (fun heq => hp heq.2), openTable_eq_ok_iff.2 hid]
    rfl
  · exact hs.bounded q id (hold hq)
  · exact hs.distinct q q' id (hold hq) (hold hq')
  · rw [table?, tableId?, hfind]
    by_cases hpq : p = q
    · rw [if_pos hpq, if_pos hpq]
      rfl
    · rw [if_neg hpq, if_neg hpq]
      rfl

/-! ## Sequences of changes -/

theorem applyAll_cons {c : Change} {changes : List Change} {s' : Store} (h : s.apply c = .ok s') :
    s.applyAll (c :: changes) = s'.applyAll changes := by
  rw [applyAll, h]

/-- Changes give no numbers. -/
theorem nextId_apply {c : Change} {s' : Store} (h : s.apply c = .ok s') :
    s'.nextId = s.nextId := by
  cases c with
  | create p =>
    cases h
    unfold create
    split <;> rfl
  | put p key value =>
    obtain ⟨id, -, h⟩ := exists_of_bind_eq_ok h
    cases h
    exact nextId_visit ..
  | erase p key =>
    obtain ⟨id, -, h⟩ := exists_of_bind_eq_ok h
    cases h
    exact nextId_visit ..
  | remove p =>
    have h : s.remove p = .ok s' := h
    unfold remove at h
    split at h
    · cases h
    · obtain ⟨id, -, h⟩ := exists_of_bind_eq_ok h
      cases h
      rfl

theorem nextId_of_applyAll {changes : List Change} {s' : Store} {r : Except Error Unit}
    (h : s.applyAll changes = (s', r)) : s'.nextId = s.nextId := by
  induction changes generalizing s with
  | nil =>
    cases h
    rfl
  | cons c changes ih =>
    rw [applyAll] at h
    cases happly : s.apply c with
    | error e =>
      rw [happly] at h
      cases h
      rfl
    | ok s₁ =>
      rw [happly] at h
      exact (ih h).trans (nextId_apply happly)

end Store

end RelQuery
