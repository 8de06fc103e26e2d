/-
  A database and its store: the catalog, the schema records and the partitions name the same
  relations in every state that statements lead to, in memory and on disk.

  A request visits pages only, or it creates, drops or fills a relation (`Changes`); each of these
  changes keeps the catalog and the partitions in step (`InStep`), and as long as schemas fit their
  records also the records (`Recorded`; `Synced` in memory). The records are read back as the
  schemas they were written from, so loading gives the catalog.

  Main statements: `Session.Attained.inStep`, `Session.Attained.recorded` and
  `Session.Reachable.catalog_stored`.
-/
import RelQuery.Proofs.Catalog
import RelQuery.Proofs.Session
import RelQuery.Proofs.Store
import RelQuery.Proofs.Record

namespace RelQuery

/-! ## Three places for one catalog -/

/-- What a request names can be counted in the fields of a schema record. -/
def Request.FitsSchema : Request → Prop
  | .createTable name attributes _ => (Utf8.encode name).length < 2 ^ 32
    ∧ attributes.length < 2 ^ 31 ∧ ∀ a ∈ attributes, (Utf8.encode a.name).length < 2 ^ 32
  | _ => True

namespace Database

open Catalog (metadata isReserved)
open Log (Journal)

/-- The partitions of a store that belong to no relation. -/
def system : Store.Engine → List String
  | .volatile => [metadata]
  | .durable => [metadata, Store.builtIn]

theorem metadata_mem_system (e : Store.Engine) : metadata ∈ system e := by
  cases e <;> exact List.mem_cons_self

/-- Their names can be no relation's. -/
theorem isReserved_of_mem_system {e : Store.Engine} {p : String} (h : p ∈ system e) :
    isReserved p = true := by
  have hreserved : ∀ p ∈ [metadata, Store.builtIn], isReserved p = true := by decide
  cases e with
  | volatile => exact hreserved p (List.mem_cons.2 ((List.mem_cons.1 h).imp_right nofun))
  | durable => exact hreserved p h

/-- The catalog and the partitions agree. -/
structure InStep (db : Database) : Prop where
  sound : db.store.Sound
  unreserved : ∀ name s, db.catalog.lookup? name = some s → isReserved name = false
  partitions : ∀ p, (db.store.table? p).isSome = true
    ↔ p ∈ system db.store.engine ∨ ∃ s, db.catalog.lookup? p = some s

/-- The records in a table are those of the catalog's schemas, and these fit their records. -/
structure StoredIn (c : Catalog) (t : Table) : Prop where
  fits : ∀ name s, c.lookup? name = some s → s.Fits
  records : ∀ name, t.find? (Utf8.encode name) = (c.lookup? name).map Schema.encode
  keys : ∀ key ∈ t.keys, ∃ name, key = Utf8.encode name

/-- The schema records agree with them, too. -/
structure Recorded (db : Database) : Prop extends InStep db where
  stored : ∀ t, db.store.table? metadata = some t → StoredIn db.catalog t

/-- All this is in memory. -/
structure Synced (db : Database) : Prop extends Recorded db where
  engine : db.store.engine = .volatile

/-- A tuple put under its key, which is a fresh number if it has no primary key: the table with the
tuple's record, and the number to give next. -/
def enter (t : Table × UInt64) (u : Tuple) : Table × UInt64 :=
  match u.primaryKey? with
  | some d => (t.1.insert d.encode u.encode, t.2)
  | none => (t.1.insert (Bytes.bigEndian 8 t.2.toNat) u.encode, t.2 + 1)

/-- The changes that a request can make: it creates, drops or fills a relation. -/
inductive Changes (db : Database) : Request → Database → Prop
  | created {name : String} {attributes : List Attribute} {primaryKey : Option Nat} {s : Schema}
    {store : Store} {t : Table} (hdef : Schema.define name attributes primaryKey = .ok s)
    (hnew : db.catalog.checkCreate s = .ok ()) (ht : db.store.table? metadata = some t)
    (he : store.engine = db.store.engine) (hs : store.Sound)
    (htables : ∀ q, store.table? q = if s.name = q then some .empty else if metadata = q then
      some (t.insert (Utf8.encode s.name) s.encode) else db.store.table? q)
    (hnext : store.nextId = db.store.nextId) :
    Changes db (.createTable name attributes primaryKey)
      { db with store, catalog := db.catalog.insert s }
  | dropped {name : String} {store : Store} {t : Table} (ht : db.store.table? metadata = some t)
    (hold : db.catalog.checkDrop name = .ok ()) (he : store.engine = db.store.engine)
    (hs : store.Sound)
    (htables : ∀ q, store.table? q = if name = q then none else if metadata = q then
      some (t.erase (Utf8.encode name)) else db.store.table? q)
    (hnext : store.nextId = db.store.nextId) :
    Changes db (.dropTable name) { db with store, catalog := db.catalog.erase name }
  | inserted {name : String} {rows : List (List Datum)} {r : Schema} {tuples : List Tuple}
    {store : Store} {t t' : Table} (hr : db.catalog.lookup? name = some r)
    (htuples : rows.mapM (Tuple.ofValues r) = .ok tuples) (ht : db.store.table? r.name = some t)
    (hnew : tuples.foldl enter (t, db.store.nextId) = (t', store.nextId))
    (hstore : db.store.Turns store r.name (some t')) :
    Changes db (.insert name rows) { db with store }

theorem table?_withLayout (db : Database) (l : Store.Layout) (p : String) :
    (db.withLayout l).store.table? p = db.store.table? p := Store.table?_congr rfl rfl p

namespace InStep

variable {db : Database}

theorem exists_metadata (h : db.InStep) : ∃ t, db.store.table? metadata = some t :=
  Option.isSome_iff_exists.1 ((h.partitions metadata).2 (.inl (metadata_mem_system _)))

theorem not_mem_system (h : db.InStep) {name : String} {s : Schema}
    (hs : db.catalog.lookup? name = some s) (e : Store.Engine) : name ∉ system e := fun hmem => by
  have hreserved := h.unreserved _ _ hs
  rw [isReserved_of_mem_system hmem] at hreserved
  cases hreserved

theorem ne_metadata (h : db.InStep) {name : String} {s : Schema}
    (hs : db.catalog.lookup? name = some s) : name ≠ metadata := by
  rintro rfl
  exact h.not_mem_system hs db.store.engine (metadata_mem_system _)

theorem withLayout (h : db.InStep) (l : Store.Layout) : (db.withLayout l).InStep where
  sound := h.sound.congr rfl rfl
  unreserved := h.unreserved
  partitions p := by
    rw [table?_withLayout]
    exact h.partitions p

/-- The partition of the records is there already when something is written to it. -/
theorem create_metadata (h : db.InStep) : db.store.create metadata = db.store := by
  obtain ⟨t, ht⟩ := h.exists_metadata
  obtain ⟨id, hid, -⟩ := Store.table?_eq_some_iff.1 ht
  exact Store.create_of_isSome hid

/-- No partition is left from a relation that had the name of a new one before. -/
theorem table?_of_checkCreate (h : db.InStep) {s : Schema}
    (hnew : db.catalog.checkCreate s = .ok ()) :
    s.name ≠ metadata ∧ db.store.table? s.name = none := by
  obtain ⟨hunreserved, hfresh⟩ := Catalog.checkCreate_eq_ok_iff.1 hnew
  have hsystem : s.name ∉ system db.store.engine := fun hmem => by
    rw [isReserved_of_mem_system hmem] at hunreserved
    cases hunreserved
  refine ⟨fun heq => hsystem (heq ▸ metadata_mem_system _), ?_⟩
  rw [← Option.not_isSome_iff_eq_none, h.partitions]
  rintro (hmem | ⟨r, hr⟩)
  · exact hsystem hmem
  · rw [hfresh] at hr
    cases hr

/-- Creating a relation writes its record and then makes its partition. -/
theorem exists_creation (h : db.InStep) {s : Schema} {t : Table}
    (hnew : db.catalog.checkCreate s = .ok ()) (ht : db.store.table? metadata = some t) :
    ∃ listed, db.store.put metadata (Utf8.encode s.name) s.encode = .ok listed
      ∧ db.store.Turns listed metadata (some (t.insert (Utf8.encode s.name) s.encode))
      ∧ db.store.applyAll (Catalog.creation s) = (listed.create s.name, .ok ())
      ∧ listed.Turns (listed.create s.name) s.name (some .empty) := by
  obtain ⟨hne, hnone⟩ := h.table?_of_checkCreate hnew
  obtain ⟨listed, hput, hturns⟩ := Store.exists_put h.sound ht (Utf8.encode s.name) s.encode
  have hcreate := Store.turns_create hturns.sound s.name
  rw [hturns.table?, if_neg hne.symm, hnone, Option.getD_none] at hcreate
  refine ⟨listed, hput, hturns, ?_, hcreate⟩
  rw [Catalog.creation, Store.applyAll_cons rfl, h.create_metadata,
    Store.applyAll_cons (c := .put metadata (Utf8.encode s.name) s.encode) hput,
    Store.applyAll_cons rfl]
  rfl

/-- Dropping a relation erases its record and then forgets its partition. -/
theorem exists_removal (h : db.InStep) {name : String} {t : Table}
    (hold : db.catalog.checkDrop name = .ok ()) (ht : db.store.table? metadata = some t) :
    ∃ unlisted store, db.store.erase metadata (Utf8.encode name) = .ok unlisted
      ∧ db.store.Turns unlisted metadata (some (t.erase (Utf8.encode name)))
      ∧ db.store.applyAll (Catalog.removal name) = (store, .ok ())
      ∧ unlisted.Turns store name none := by
  obtain ⟨r, hr⟩ := Catalog.checkDrop_eq_ok_iff.1 hold
  obtain ⟨u, hu⟩ := Option.isSome_iff_exists.1 ((h.partitions name).2 (.inr ⟨r, hr⟩))
  obtain ⟨unlisted, herase, hturns⟩ := Store.exists_erase h.sound ht (Utf8.encode name)
  have hthere : unlisted.table? name = some u := by
    rw [hturns.table?, if_neg (h.ne_metadata hr).symm, hu]
  obtain ⟨store, hremove, hforget⟩ := Store.exists_remove hturns.sound hthere
    fun heq => h.not_mem_system hr .durable (heq ▸ List.mem_cons_of_mem _ List.mem_cons_self)
  refine ⟨unlisted, store, herase, hturns, ?_, hforget⟩
  rw [Catalog.removal, Store.applyAll_cons rfl, h.create_metadata,
    Store.applyAll_cons (c := .erase metadata (Utf8.encode name)) herase,
    Store.applyAll_cons (c := .remove name) hremove]
  rfl

end InStep

theorem Recorded.withLayout {db : Database} (h : db.Recorded) (l : Store.Layout) :
    (db.withLayout l).Recorded where
  toInStep := h.toInStep.withLayout l
  stored t ht := h.stored t (table?_withLayout db l metadata ▸ ht)

/-! ## Filling relations -/

section

variable {s : Store} {p : String} {id : TableId}

/-- Only counters depend on whether a key was made. -/
theorem keyOf_congr (s : Store) (u : Tuple) :
    (Execution.keyOf s u).2.engine = s.engine ∧ (Execution.keyOf s u).2.tables = s.tables
      ∧ (Execution.keyOf s u).2.partitions = s.partitions := by
  unfold Execution.keyOf
  split <;> exact ⟨rfl, rfl, rfl⟩

/-- A tuple's record is put into the table under the tuple's key. -/
theorem turns_insertTuple (hs : s.Sound) (hid : s.tableId? p = some id) (u : Tuple) :
    s.Turns (Execution.insertTuple id s u) p (some (enter (s.table id, s.nextId) u).1)
      ∧ (Execution.insertTuple id s u).tableId? p = some id
      ∧ (Execution.insertTuple id s u).nextId = (enter (s.table id, s.nextId) u).2 := by
  obtain ⟨he, ht, hp⟩ := keyOf_congr s u
  have henter : enter (s.table id, s.nextId) u
      = ((s.table id).insert (Execution.keyOf s u).1 u.encode, (Execution.keyOf s u).2.nextId) := by
    unfold enter Execution.keyOf
    cases u.primaryKey? <;> rfl
  rw [henter]
  unfold Execution.insertTuple
  generalize Execution.keyOf s u = keyed at he ht hp
  obtain ⟨key, s'⟩ := keyed
  have hid' : s'.tableId? p = some id := by
    rw [Store.tableId?, hp]
    exact hid
  have htable : s'.table id = s.table id := by rw [Store.table, Store.table, ht]
  have hturns := Store.turns_write (hs.congr ht hp) hid' key u.encode
  rw [htable] at hturns
  refine ⟨hturns.of_congr he ht hp, ?_, Store.nextId_visit ..⟩
  show (s'.visit id key).partitions.find? p = some id
  rw [Store.partitions_visit]
  exact hid'

/-- Tuples are entered one after the other. -/
theorem turns_insertTuples (hs : s.Sound) (hid : s.tableId? p = some id) (tuples : List Tuple) :
    ∃ t', tuples.foldl enter (s.table id, s.nextId)
        = (t', (tuples.foldl (Execution.insertTuple id) s).nextId)
      ∧ s.Turns (tuples.foldl (Execution.insertTuple id) s) p (some t') := by
  induction tuples generalizing s with
  | nil =>
    refine ⟨s.table id, rfl, rfl, hs, fun q => ?_⟩
    by_cases hpq : p = q
    · subst hpq
      rw [if_pos rfl, List.foldl_nil, Store.table?, hid]
      rfl
    · rw [if_neg hpq]
      rfl
  | cons u tuples ih =>
    obtain ⟨hturns, hid', hnext⟩ := turns_insertTuple hs hid u
    have htable : (Execution.insertTuple id s u).table id = (enter (s.table id, s.nextId) u).1 := by
      have hthere := hturns.table? p
      rw [if_pos rfl, Store.table?, hid'] at hthere
      exact Option.some.inj hthere
    obtain ⟨t', hentered, hrest⟩ := ih hturns.sound hid'
    rw [htable, hnext] at hentered
    exact ⟨t', hentered, hturns.trans hrest⟩

end

/-! ## What requests do -/

/-- The partition of a relation is there. -/
theorem InStep.exists_tableId {db : Database} (h : db.InStep) {r : Schema}
    (hr : db.catalog.lookup? r.name = some r) : ∃ id, db.store.tableId? r.name = some id := by
  have hthere := (h.partitions r.name).2 (.inr ⟨r, hr⟩)
  rw [Store.isSome_table?] at hthere
  exact Option.isSome_iff_exists.1 hthere

/-- Carrying out a plan changes nothing but the layout, as it only reads or is refused by the
catalog, or it succeeds and makes one of the changes. -/
theorem InStep.run_cases {db : Database} (h : db.InStep) {request : Request} {p : Plan}
    (hfrom : Binding.PlanOf db.catalog request p) (j : Journal) :
    ((∃ l, (Execution.run p).after db j = db.withLayout l) ∧ (p.isQuery = true
        ∨ ∃ e, (Execution.run p).result db j = .error e ∧ e.kind.isSchema = true))
      ∨ ∃ outcome, (Execution.run p).result db j = .ok outcome
        ∧ db.Changes request ((Execution.run p).after db j) := by
  obtain ⟨t, ht⟩ := h.exists_metadata
  unfold Action.result Action.after
  cases hfrom with
  | @create name attributes primaryKey s hdef =>
    cases hnew : db.catalog.checkCreate s with
    | error e =>
      rw [Execution.run_create_of_error hnew]
      exact .inl ⟨⟨db.store.layout, rfl⟩, .inr ⟨e, rfl, db.catalog.checkCreate_failsOnly s e hnew⟩⟩
    | ok =>
      obtain ⟨listed, -, hlisted, happly, hcreated⟩ := h.exists_creation hnew ht
      obtain ⟨_, hrun⟩ := Execution.run_create_of_ok (j := j) hnew happly
      rw [hrun]
      exact .inr ⟨_, rfl, .created hdef hnew ht (hcreated.engine.trans hlisted.engine)
        hcreated.sound (fun q => by rw [hcreated.table?, hlisted.table?])
        (Store.nextId_of_applyAll happly)⟩
  | drop name =>
    cases hold : db.catalog.checkDrop name with
    | error e =>
      rw [Execution.run_drop_of_error hold]
      exact .inl ⟨⟨db.store.layout, rfl⟩, .inr ⟨e, rfl, db.catalog.checkDrop_failsOnly name e hold⟩⟩
    | ok =>
      obtain ⟨unlisted, store, -, hunlisted, happly, hremoved⟩ := h.exists_removal hold ht
      obtain ⟨_, hrun⟩ := Execution.run_drop_of_ok (j := j) hold happly
      rw [hrun]
      exact .inr ⟨_, rfl, .dropped ht hold (hremoved.engine.trans hunlisted.engine)
        hremoved.sound (fun q => by rw [hremoved.table?, hunlisted.table?])
        (Store.nextId_of_applyAll happly)⟩
  | @insert name rows r tuples hr htuples =>
    have hr := Catalog.lookup_eq_ok_iff.1 hr
    have hname := Catalog.name_of_lookup? hr
    obtain ⟨id, hid⟩ := h.exists_tableId (hname.symm ▸ hr)
    obtain ⟨t', hnew, hturns⟩ := turns_insertTuples h.sound hid tuples
    obtain ⟨_, hrun⟩ := Execution.run_insert_of_ok (j := j) (Store.openTable_eq_ok_iff.2 hid) tuples
    rw [hrun]
    exact .inr ⟨_, rfl, .inserted hr htuples (Store.table?_eq_some_iff.2 ⟨id, hid, rfl⟩) hnew
      hturns⟩
  | select | showTables | explain => exact .inl ⟨Execution.after_run_of_isQuery rfl, .inl rfl⟩

/-- A request changes nothing but the layout, as it only reads or fails, or it succeeds and makes
one of the changes. -/
theorem InStep.after_cases {db : Database} (h : db.InStep) (request : Request) (j : Journal) :
    ((∃ l, (Session.executeRequest request).after db j = db.withLayout l)
        ∧ (request.isRead = true ∨ ∃ e, (Session.executeRequest request).result db j = .error e))
      ∨ ∃ l result, (Session.executeRequest request).result db j = .ok result
        ∧ (db.withLayout l).Changes request ((Session.executeRequest request).after db j) := by
  cases hplan : (Session.plan request db).result db.store.layout j with
  | error e =>
    obtain ⟨hresult, hafter⟩ := Session.executeRequest_of_error hplan
    exact .inl ⟨hafter, .inr ⟨e, hresult⟩⟩
  | ok p =>
    obtain ⟨l, k, hresult, hafter⟩ := Session.executeRequest_of_ok hplan
    have hfrom := Session.plan_eq_ok hplan
    have hcatalog : db.catalog = (db.withLayout l).catalog := rfl
    rw [hcatalog] at hfrom
    rw [hresult, hafter]
    rcases (h.withLayout l).run_cases hfrom k with
      ⟨⟨l', hl'⟩, hread | ⟨e, he, -⟩⟩ | ⟨outcome, hok, hchanges⟩
    · exact .inl ⟨⟨l', hl'⟩, .inl (hfrom.isQuery_eq ▸ hread)⟩
    · exact .inl ⟨⟨l', hl'⟩, .inr ⟨e, by rw [he]; rfl⟩⟩
    · rw [hok]
      exact .inr ⟨l, _, rfl, hchanges⟩

section

variable {db : Database} {name : String} {j : Journal}

open Session (executeRequest Result result_of_plan result_of_no_plan)

theorem InStep.result_run_create (h : db.InStep) (s : Schema) :
    (Execution.run (.create s)).result db j
      = (db.catalog.checkCreate s).map fun _ => .done := by
  cases hnew : db.catalog.checkCreate s with
  | error e => exact congrArg (·.1.1) (Execution.run_create_of_error hnew)
  | ok =>
    obtain ⟨t, ht⟩ := h.exists_metadata
    obtain ⟨_, -, -, happly, -⟩ := h.exists_creation hnew ht
    obtain ⟨_, hrun⟩ := Execution.run_create_of_ok (j := j) hnew happly
    exact congrArg (·.1.1) hrun

theorem InStep.result_run_drop (h : db.InStep) (name : String) :
    (Execution.run (.drop name)).result db j
      = (db.catalog.checkDrop name).map fun _ => .done := by
  cases hold : db.catalog.checkDrop name with
  | error e => exact congrArg (·.1.1) (Execution.run_drop_of_error hold)
  | ok =>
    obtain ⟨t, ht⟩ := h.exists_metadata
    obtain ⟨_, _, -, -, happly, -⟩ := h.exists_removal hold ht
    obtain ⟨_, hrun⟩ := Execution.run_drop_of_ok (j := j) hold happly
    exact congrArg (·.1.1) hrun

theorem InStep.result_run_insert (h : db.InStep) {r : Schema}
    (hr : db.catalog.lookup? r.name = some r) (tuples : List Tuple) :
    (Execution.run (.insert r tuples)).result db j = .ok ⟨[], [], tuples.length⟩ := by
  obtain ⟨id, hid⟩ := h.exists_tableId hr
  obtain ⟨_, hrun⟩ := Execution.run_insert_of_ok (j := j) (Store.openTable_eq_ok_iff.2 hid) tuples
  exact congrArg (·.1.1) hrun

/-- Creating a relation is refused for its schema or by the catalog, and nothing else stops it. -/
theorem InStep.result_createTable (h : db.InStep) {attributes : List Attribute}
    {primaryKey : Option Nat} :
    (executeRequest (.createTable name attributes primaryKey)).result db j
      = (Schema.define name attributes primaryKey >>= db.catalog.checkCreate).map
        fun _ => ⟨.done, false⟩ := by
  have hplan : (Binding.request db (.createTable name attributes primaryKey)).Gives
      (Schema.define name attributes primaryKey >>= fun s => .ok (.create s)) :=
    (Reading.Gives.ofExcept _).andThen fun s _ => Reading.Gives.pure (Plan.create s)
  cases hdef : Schema.define name attributes primaryKey with
  | error e =>
    rw [hdef] at hplan
    exact result_of_no_plan hplan
  | ok s =>
    rw [hdef] at hplan
    have hrun : ∀ l k, (Execution.run (.create s)).result (db.withLayout l) k
        = (db.catalog.checkCreate s).map fun _ => .done :=
      fun l k => (h.withLayout l).result_run_create s
    rw [result_of_plan hplan hrun]
    exact Except.map_map ..

/-- Dropping a relation succeeds if it is there. -/
theorem InStep.result_dropTable (h : db.InStep) :
    (executeRequest (.dropTable name)).result db j
      = (db.catalog.checkDrop name).map fun _ => ⟨.done, false⟩ := by
  have hplan : (Binding.request db (.dropTable name)).Gives (.ok (.drop name)) :=
    Reading.Gives.pure _
  have hrun : ∀ l k, (Execution.run (.drop name)).result (db.withLayout l) k
      = (db.catalog.checkDrop name).map fun _ => .done :=
    fun l k => (h.withLayout l).result_run_drop name
  rw [result_of_plan hplan hrun]
  exact Except.map_map ..

/-- Rows are inserted if the relation is there and all of them have its types. -/
theorem InStep.result_insert (h : db.InStep) {rows : List (List Datum)} :
    (executeRequest (.insert name rows)).result db j
      = (db.catalog.lookup name >>= fun r => rows.mapM (Tuple.ofValues r)).map
        fun tuples => ⟨⟨[], [], tuples.length⟩, false⟩ := by
  have hplan : (Binding.request db (.insert name rows)).Gives
      (db.catalog.lookup name >>= fun r => rows.mapM (Tuple.ofValues r) >>= fun tuples =>
        .ok (.insert r tuples)) :=
    (Reading.Gives.ofExcept _).andThen fun r _ => (Reading.Gives.ofExcept _).andThen
      fun tuples _ => Reading.Gives.pure (Plan.insert r tuples)
  cases hr : db.catalog.lookup name with
  | error e =>
    rw [hr] at hplan
    exact result_of_no_plan hplan
  | ok r =>
    have hplan : (Binding.request db (.insert name rows)).Gives
        (rows.mapM (Tuple.ofValues r) >>= fun tuples => .ok (.insert r tuples)) := by
      rw [hr] at hplan
      exact hplan
    show _ = (rows.mapM (Tuple.ofValues r)).map _
    cases htuples : rows.mapM (Tuple.ofValues r) with
    | error e =>
      rw [htuples] at hplan
      exact result_of_no_plan hplan
    | ok tuples =>
      rw [htuples] at hplan
      have hlookup := Catalog.lookup_eq_ok_iff.1 hr
      obtain rfl := Catalog.name_of_lookup? hlookup
      rw [result_of_plan hplan fun l k => (h.withLayout l).result_run_insert hlookup tuples]
      rfl

end

/-! ## What changes keep -/

theorem ne_metadata_of_unreserved {name : String} (h : isReserved name = false) :
    name ≠ metadata := by
  rintro rfl
  rw [Catalog.isReserved_metadata] at h
  cases h

theorem fits_of_define {name : String} {attributes : List Attribute} {primaryKey : Option Nat}
    {s : Schema} (h : Schema.define name attributes primaryKey = .ok s)
    (hfits : Request.FitsSchema (.createTable name attributes primaryKey)) : s.Fits := by
  obtain ⟨hname, hattributes, -⟩ := Schema.eq_of_define h
  obtain ⟨hfitname, hfitarity, hfitattributes⟩ := hfits
  rw [← hname] at hfitname
  rw [← hattributes] at hfitarity hfitattributes
  exact ⟨hfitname, hfitarity, hfitattributes⟩

namespace InStep

variable {db : Database} {store : Store} {t : Table}

/-- A new relation gets a partition with nothing in it. -/
theorem created (h : db.InStep) {s : Schema}
    (hnew : db.catalog.checkCreate s = .ok ()) (he : store.engine = db.store.engine)
    (hs : store.Sound) (htables : ∀ q, store.table? q = if s.name = q then some .empty
      else if metadata = q then some t else db.store.table? q) :
    InStep { db with store, catalog := db.catalog.insert s } := by
  obtain ⟨hunreserved, -⟩ := Catalog.checkCreate_eq_ok_iff.1 hnew
  refine ⟨hs, fun n r hr => ?_, fun p => ?_⟩
  · rw [Catalog.lookup?_insert] at hr
    by_cases hname : s.name = n
    · rw [← hname]
      exact hunreserved
    · rw [if_neg hname] at hr
      exact h.unreserved n r hr
  · rw [htables, he, Catalog.lookup?_insert]
    by_cases hname : s.name = p
    · simp [hname]
    · rw [if_neg hname, if_neg hname]
      by_cases hp : metadata = p
      · simp [← hp, metadata_mem_system]
      · rw [if_neg hp]
        exact h.partitions p

/-- A relation that is dropped loses its partition. -/
theorem dropped (h : db.InStep) {name : String} (hold : db.catalog.checkDrop name = .ok ())
    (he : store.engine = db.store.engine) (hs : store.Sound)
    (htables : ∀ q, store.table? q = if name = q then none else if metadata = q then some t
      else db.store.table? q) :
    InStep { db with store, catalog := db.catalog.erase name } := by
  obtain ⟨r, hr⟩ := Catalog.checkDrop_eq_ok_iff.1 hold
  have hsystem := h.not_mem_system hr
  refine ⟨hs, fun n r hr => h.unreserved n r (Catalog.lookup?_of_erase hr), fun p => ?_⟩
  rw [htables, he, Catalog.lookup?_erase]
  by_cases hname : name = p
  · subst hname
    simp [hsystem]
  · rw [if_neg hname, if_neg hname]
    by_cases hp : metadata = p
    · simp [← hp, metadata_mem_system]
    · rw [if_neg hp]
      exact h.partitions p

/-- Rows of a relation have no part in names. -/
theorem inserted (h : db.InStep) {name : String} {r : Schema}
    (hr : db.catalog.lookup? name = some r) (hstore : db.store.Turns store r.name (some t)) :
    InStep { db with store } := by
  have hname := Catalog.name_of_lookup? hr
  refine ⟨hstore.sound, h.unreserved, fun p => ?_⟩
  rw [hstore.table?, hstore.engine]
  by_cases hp : r.name = p
  · rw [if_pos hp]
    have hthere : ∃ s, db.catalog.lookup? p = some s := ⟨r, hp ▸ hname.symm ▸ hr⟩
    simp [hthere]
  · rw [if_neg hp]
    exact h.partitions p

/-- Every change keeps the catalog and the partitions in step. -/
theorem changes (h : db.InStep) {db' : Database} {request : Request}
    (hchanges : db.Changes request db') : db'.InStep := by
  cases hchanges with
  | created hdef hnew ht he hs htables => exact h.created hnew he hs htables
  | dropped ht hold he hs htables => exact h.dropped hold he hs htables
  | inserted hr htuples ht hnew hstore => exact h.inserted hr hstore

end InStep

namespace Changes

variable {db db' : Database} {request : Request} {name : String}

theorem engine (h : db.Changes request db') : db'.store.engine = db.store.engine := by
  cases h with
  | created _ _ _ he => exact he
  | dropped _ _ he => exact he
  | inserted _ _ _ _ hstore => exact hstore.engine

theorem config (h : db.Changes request db') : db'.config = db.config := by
  cases h <;> rfl

/-- A change leaves the schemas of all other relations. -/
theorem lookup?_other (h : db.Changes request db') (hother : request.target? ≠ some name) :
    db'.catalog.lookup? name = db.catalog.lookup? name := by
  cases h with
  | created hdef =>
    obtain ⟨rfl, -⟩ := Schema.eq_of_define hdef
    exact (Catalog.lookup?_insert ..).trans (if_neg fun heq => hother (congrArg some heq))
  | dropped => exact (Catalog.lookup?_erase ..).trans (if_neg fun heq => hother (congrArg some heq))
  | inserted => rfl

/-- It leaves their tables, too. -/
theorem table?_other (h : db.Changes request db') (hother : request.target? ≠ some name)
    (hmeta : name ≠ metadata) : db'.store.table? name = db.store.table? name := by
  cases h with
  | created hdef _ _ _ _ htables =>
    obtain ⟨rfl, -⟩ := Schema.eq_of_define hdef
    rw [htables, if_neg fun heq => hother (congrArg some heq), if_neg hmeta.symm]
  | dropped _ _ _ _ htables =>
    rw [htables, if_neg fun heq => hother (congrArg some heq), if_neg hmeta.symm]
  | inserted hr _ _ _ hstore =>
    rw [hstore.table?, Catalog.name_of_lookup? hr, if_neg fun heq => hother (congrArg some heq)]

end Changes

namespace StoredIn

variable {c : Catalog} {t : Table}

theorem empty : StoredIn .empty .empty where
  fits _ _ h := by cases h
  records _ := rfl
  keys _ h := by cases h

/-- A new relation gets its record. -/
theorem insert (h : StoredIn c t) {s : Schema} (hfits : s.Fits) :
    StoredIn (c.insert s) (t.insert (Utf8.encode s.name) s.encode) := by
  refine ⟨fun n r hr => ?_, fun n => ?_, fun key hkey => ?_⟩
  · rw [Catalog.lookup?_insert] at hr
    split at hr
    · cases hr
      exact hfits
    · exact h.fits n r hr
  · rw [SortedMap.find?_insert, Catalog.lookup?_insert]
    by_cases hname : s.name = n
    · rw [if_pos hname, if_pos (congrArg Utf8.encode hname)]
      rfl
    · rw [if_neg hname, if_neg fun heq => hname (Utf8.encode_injective heq)]
      exact h.records n
  · obtain ⟨e, he, rfl⟩ := List.mem_map.1 hkey
    rcases SortedMap.mem_insertEntry he with rfl | he
    · exact ⟨s.name, rfl⟩
    · exact h.keys _ (List.mem_map_of_mem he)

/-- A relation that is dropped loses its record. -/
theorem erase (h : StoredIn c t) (name : String) :
    StoredIn (c.erase name) (t.erase (Utf8.encode name)) := by
  refine ⟨fun n r hr => h.fits n r (Catalog.lookup?_of_erase hr), fun n => ?_, fun key hkey => ?_⟩
  · rw [SortedMap.find?_erase, Catalog.lookup?_erase]
    by_cases hname : name = n
    · rw [if_pos hname, if_pos (congrArg Utf8.encode hname)]
      rfl
    · rw [if_neg hname, if_neg fun heq => hname (Utf8.encode_injective heq)]
      exact h.records n
  · obtain ⟨e, he, rfl⟩ := List.mem_map.1 hkey
    exact h.keys _ (List.mem_map_of_mem (List.mem_filter.1 he).1)

/-- The entries are the records of the catalog's relations, each under its name. -/
theorem entries_perm (h : StoredIn c t) :
    t.entries.Perm (c.relations.entries.map fun e => (Utf8.encode e.1, e.2.encode)) := by
  have hnodup : (c.relations.entries.map fun e => (Utf8.encode e.1, e.2.encode)).Nodup := by
    have hkeys := c.relations.keys_nodup
    refine List.pairwise_map.2 ((List.pairwise_map.1 hkeys).imp fun hne heq => ?_)
    exact hne (Utf8.encode_injective (congrArg Prod.fst heq))
  refine (List.perm_ext_iff_of_nodup t.nodup hnodup).2 fun e => ?_
  rw [List.mem_map]
  constructor
  · intro he
    obtain ⟨name, hname⟩ := h.keys e.1 (List.mem_map_of_mem he)
    have hfind := SortedMap.find?_eq_some_iff.2 he
    rw [hname, h.records, Option.map_eq_some_iff] at hfind
    obtain ⟨s, hs, hrecord⟩ := hfind
    exact ⟨(name, s), SortedMap.find?_eq_some_iff.1 hs, by rw [← hname, hrecord]⟩
  · rintro ⟨⟨name, s⟩, hs, rfl⟩
    have hs : c.lookup? name = some s := SortedMap.find?_eq_some_iff.2 hs
    rw [← SortedMap.find?_eq_some_iff, h.records, hs]
    rfl

/-- They are read as the catalog. -/
theorem ofRecords (h : StoredIn c t) : Catalog.ofRecords t.entries = .ok c := by
  have hmem : ∀ e ∈ t.entries, ∃ s, Schema.decode e.2 = .ok s ∧ c.lookup? s.name = some s := by
    intro e he
    obtain ⟨⟨name, s⟩, hs, rfl⟩ := List.mem_map.1 (h.entries_perm.subset he)
    have hs : c.lookup? name = some s := SortedMap.find?_eq_some_iff.2 hs
    have hname := Catalog.name_of_lookup? hs
    exact ⟨s, Schema.decode_encode (h.fits name s hs).recordable, hname.symm ▸ hs⟩
  obtain ⟨c', hc, hto, -, hrecords⟩ := Catalog.foldlM_ofRecords c .empty hmem
    (fun name s hs => by cases hs)
  have hcatalog : c' = c := by
    refine Catalog.ext_lookup? fun name => Option.ext fun s => ⟨hto name s, fun hs => ?_⟩
    have hname := Catalog.name_of_lookup? hs
    have he := h.entries_perm.symm.subset
      (List.mem_map_of_mem (SortedMap.find?_eq_some_iff.1 hs))
    rw [← hname]
    exact hrecords _ he s (Schema.decode_encode (h.fits name s hs).recordable)
  rw [Catalog.ofRecords, hc, hcatalog]

end StoredIn

/-- Every change keeps the three places in step. -/
theorem Recorded.changes {db db' : Database} {request : Request} (h : db.Recorded)
    (hfits : request.FitsSchema) (hchanges : db.Changes request db') : db'.Recorded := by
  refine ⟨h.toInStep.changes hchanges, fun u hu => ?_⟩
  cases hchanges with
  | created hdef hnew ht _ _ htables =>
    obtain ⟨hunreserved, -⟩ := Catalog.checkCreate_eq_ok_iff.1 hnew
    rw [htables, if_neg (ne_metadata_of_unreserved hunreserved), if_pos rfl] at hu
    cases hu
    exact (h.stored _ ht).insert (fits_of_define hdef hfits)
  | dropped ht hold _ _ htables =>
    obtain ⟨r, hr⟩ := Catalog.checkDrop_eq_ok_iff.1 hold
    rw [htables, if_neg (h.ne_metadata hr), if_pos rfl] at hu
    cases hu
    exact (h.stored _ ht).erase _
  | inserted hr _ _ _ hstore =>
    have hne := Catalog.name_of_lookup? hr ▸ h.ne_metadata hr
    rw [hstore.table?, if_neg hne] at hu
    exact h.stored u hu

/-! ## Loading -/

/-- A store is loaded by what is in its records, and is left as it is but for the layout. -/
theorem StoredIn.load {c : Catalog} {t : Table} {s : Store} (h : StoredIn c t)
    (ht : s.table? metadata = some t) :
    ∃ l, Catalog.load s = ({ s with layout := l }, .ok c) := by
  obtain ⟨id, hid, rfl⟩ := Store.table?_eq_some_iff.1 ht
  obtain ⟨l, hwalk⟩ := Store.walkTo_of_tableId? hid fun r => !(Schema.decode r.2).isOk
  refine ⟨l, ?_⟩
  unfold Catalog.load
  rw [Store.create_of_isSome hid]
  dsimp only
  rw [hwalk]
  exact congrArg (Prod.mk _) h.ofRecords

/-- Loading the store gives the catalog. -/
theorem Recorded.load_eq {db : Database} (h : db.Recorded) :
    (Catalog.load db.store).2 = .ok db.catalog := by
  obtain ⟨t, ht⟩ := h.exists_metadata
  obtain ⟨l, hload⟩ := (h.stored t ht).load ht
  rw [hload]

/-- The schema records are those of the catalog's relations, each under its name. -/
theorem Recorded.records_perm {db : Database} (h : db.Recorded) {t : Table}
    (ht : db.store.table? metadata = some t) :
    t.entries.Perm (db.catalog.relations.entries.map fun e => (Utf8.encode e.1, e.2.encode)) :=
  (h.stored t ht).entries_perm

/-- The partitions are that of the records and one for each relation. -/
theorem Synced.partitions_perm {db : Database} (h : db.Synced) :
    db.store.partitions.keys.Perm (metadata :: db.catalog.names) := by
  have hnot : metadata ∉ db.catalog.names := fun hmem => by
    obtain ⟨s, hs⟩ := Option.isSome_iff_exists.1 (SortedMap.find?_isSome_iff.2 hmem)
    exact h.ne_metadata hs rfl
  have hnodup : (metadata :: db.catalog.names).Nodup :=
    List.nodup_cons.2 ⟨hnot, db.catalog.relations.keys_nodup⟩
  refine (List.perm_ext_iff_of_nodup db.store.partitions.keys_nodup hnodup).2 fun p => ?_
  have hp := h.partitions p
  rw [Store.isSome_table?, h.engine, system, List.mem_singleton] at hp
  rw [← SortedMap.find?_isSome_iff, List.mem_cons]
  refine hp.trans (or_congr_right ?_)
  rw [Catalog.names, ← SortedMap.find?_isSome_iff, Option.isSome_iff_exists]
  rfl

/-! ## Reachable states -/

theorem run_load_of_ok {db : Database} {store : Store} {catalog : Catalog}
    (h : Catalog.load db.store = (store, .ok catalog)) (j : Journal) :
    load.run db j = ((.ok (), { db with store, catalog }),
      j ++ [⟨.info, "Loaded " ++ toString catalog.size ++ " relation(s) from catalog"⟩]) := by
  rw [load, Action.run_get, h]
  rfl

/-- Opening a store that can be loaded gives the database on it. -/
theorem openStore_of_ok {store store' : Store} {catalog : Catalog}
    (h : Catalog.load store = (store', .ok catalog)) (config : Config) (j : Journal) :
    ((openStore config store).run j).1 = .ok ⟨catalog, store', config⟩ := by
  have hopen : ∀ k, load.run ⟨.empty, store, config⟩ k = _ := @run_load_of_ok _ _ _ h
  have hrun : ((openStore config store).run j).1
      = (load.run ⟨.empty, store, config⟩ (j ++ [⟨.info, openingText config⟩])).1.1.map
        fun _ => (load.run ⟨.empty, store, config⟩ (j ++ [⟨.info, openingText config⟩])).1.2 := rfl
  rw [hrun, hopen]
  rfl

/-- A new database has loaded an empty catalog from its store, to which this has added the
partition of the records. -/
theorem create_gives (config : Config) (j : Journal) :
    ∃ l, ((create config).run j).1
      = .ok (withLayout ⟨.empty, (freshStore config).create metadata, config⟩ l) := by
  have hload : ∃ l, Catalog.load (freshStore config)
      = ({ (freshStore config).create metadata with layout := l }, .ok .empty) := by
    unfold freshStore
    split <;> exact ⟨_, rfl⟩
  obtain ⟨l, hload⟩ := hload
  exact ⟨l, openStore_of_ok hload config j⟩

/-- In memory nothing is known about its layout. -/
theorem create_eq {config : Config} (hdir : config.dataDir = none) (j : Journal) :
    ((create config).run j).1 = .ok ⟨.empty, Store.volatile.create metadata, config⟩ := by
  have hload : Catalog.load .volatile = (Store.volatile.create metadata, .ok .empty) := rfl
  have hfresh : freshStore config = .volatile := by
    rw [freshStore, hdir]
    rfl
  rw [create, hfresh]
  exact openStore_of_ok hload config j

theorem sound_freshStore (config : Config) : (freshStore config).Sound := by
  unfold freshStore
  split
  · exact Store.sound_durable
  · exact Store.sound_volatile

/-- A store before anything was done to it holds nothing in its system partitions. -/
theorem table?_freshStore (config : Config) (p : String) : (freshStore config).table? p
    = if p ∈ system (freshStore config).engine ∧ metadata ≠ p then some .empty else none := by
  unfold freshStore
  split
  · rw [Store.table?, Store.tableId?_durable]
    by_cases hp : Store.builtIn = p
    · subst hp
      rfl
    · simp [hp, Ne.symm hp, system, Store.durable, eq_comm]
  · have hnone : Store.volatile.table? p = none := rfl
    rw [hnone]
    simp [system, Store.volatile, eq_comm]

theorem recorded_empty (config : Config) :
    Recorded ⟨.empty, (freshStore config).create metadata, config⟩ := by
  have hturns := Store.turns_create (sound_freshStore config) metadata
  rw [table?_freshStore, if_neg (fun h => h.2 rfl), Option.getD_none] at hturns
  have hmeta := (hturns.table? metadata).trans (if_pos rfl)
  have hnone : ∀ name, Catalog.empty.lookup? name = none := fun _ => rfl
  refine ⟨⟨hturns.sound, fun n s hs => ?_, fun p => ?_⟩, fun t ht => ?_⟩
  · cases hs
  · simp only [hnone, hturns.engine]
    rw [hturns.table?]
    by_cases hp : metadata = p
    · simp [← hp, metadata_mem_system]
    · rw [if_neg hp, table?_freshStore]
      simp [hp]
  · rw [hmeta] at ht
    cases ht
    exact .empty

end Database

namespace Session

variable {fits : Request → Prop} {db : Database}

/-- A statement leaves the database as it was but for the layout, as it only reads or fails, or it
succeeds and makes one of the changes. -/
theorem Statement.after_cases (h : db.InStep) (statement : Statement) (j : Log.Journal) :
    ((∃ l, statement.run.after db j = db.withLayout l)
        ∧ ((∃ r, statement.request? = .ok r ∧ r.isRead = true)
          ∨ ∃ e, statement.run.result db j = .error e))
      ∨ ∃ r l result, statement.request? = .ok r ∧ statement.run.result db j = .ok result
        ∧ (db.withLayout l).Changes r (statement.run.after db j) := by
  cases hr : statement.request? with
  | error e =>
    obtain ⟨hresult, hafter⟩ := Statement.run_of_error hr db j
    exact .inl ⟨⟨db.store.layout, hafter⟩, .inr ⟨e, hresult⟩⟩
  | ok r =>
    obtain ⟨k, hresult, hafter⟩ := Statement.run_of_ok hr db j
    rw [hresult, hafter]
    rcases h.after_cases r k with ⟨hsame, hread | hfails⟩ | ⟨l, result, hok, hchanges⟩
    · exact .inl ⟨hsame, .inl ⟨r, rfl, hread⟩⟩
    · exact .inl ⟨hsame, .inr hfails⟩
    · exact .inr ⟨r, l, result, rfl, hok, hchanges⟩

/-- A statement that fails leaves the database as it was but for the layout. -/
theorem Statement.after_of_error (h : db.InStep) {statement : Statement} {j : Log.Journal}
    {e : Error} (he : statement.run.result db j = .error e) :
    ∃ l, statement.run.after db j = db.withLayout l := by
  rcases statement.after_cases h j with ⟨hl, -⟩ | ⟨r, l, result, -, hok, -⟩
  · exact hl
  · rw [he] at hok
    cases hok

/-- One that succeeds and does not only read makes the change of its request. -/
theorem Statement.after_of_ok (h : db.InStep) {statement : Statement} {r : Request}
    (hr : statement.request? = .ok r) (hread : r.isRead = false) {j : Log.Journal}
    {result : Result} (hok : statement.run.result db j = .ok result) :
    ∃ l, (db.withLayout l).Changes r (statement.run.after db j) := by
  rcases statement.after_cases h j with
    ⟨-, ⟨r', hr', hread'⟩ | ⟨e, he⟩⟩ | ⟨r', l, _, hr', -, hchanges⟩
  · rw [hr] at hr'
    cases hr'
    rw [hread] at hread'
    cases hread'
  · rw [hok] at he
    cases he
  · rw [hr] at hr'
    cases hr'
    exact ⟨l, hchanges⟩

/-- In every state that statements lead to, the catalog and the partitions agree, whatever the
schemas are. -/
theorem Attained.inStep {n : Nat} (h : Attained fits n db) : db.InStep := by
  induction h with
  | @created config db j h =>
    obtain ⟨l, hl⟩ := Database.create_gives config j
    rw [hl] at h
    cases h
    exact (Database.recorded_empty config).toInStep.withLayout l
  | configured h _ _ ih => exact ⟨ih.sound, ih.unreserved, ih.partitions⟩
  | @executed n db h statement j hfit ih =>
    rcases statement.after_cases ih j with ⟨⟨l, hl⟩, -⟩ | ⟨r, l, result, hr, hok, hchanges⟩
    · rw [hl]
      exact ih.withLayout l
    · exact (ih.withLayout l).changes hchanges

/-- As long as schemas fit their records, the three places agree. -/
theorem Attained.recorded {n : Nat} (hfits : ∀ r, fits r → r.FitsSchema)
    (h : Attained fits n db) : db.Recorded := by
  induction h with
  | @created config db j h =>
    obtain ⟨l, hl⟩ := Database.create_gives config j
    rw [hl] at h
    cases h
    exact (Database.recorded_empty config).withLayout l
  | configured h _ _ ih => exact ⟨⟨ih.sound, ih.unreserved, ih.partitions⟩, ih.stored⟩
  | @executed n db h statement j hfit ih =>
    rcases statement.after_cases ih.toInStep j with ⟨⟨l, hl⟩, -⟩ | ⟨r, l, result, hr, hok, hchanges⟩
    · rw [hl]
      exact ih.withLayout l
    · exact (ih.withLayout l).changes (hfits r (hfit r hr ⟨result, hok⟩)) hchanges

theorem Reachable.inStep (h : Reachable fits db) : db.InStep :=
  h.exists_attained.choose_spec.inStep

/-- Statements do not move a database to disk. -/
theorem Reachable.engine (h : Reachable fits db) : db.store.engine = .volatile := by
  induction h with
  | @created config db j hdir h =>
    rw [Database.create_eq hdir] at h
    cases h
    rfl
  | configured _ _ _ ih => exact ih
  | @executed db h statement j hfit ih =>
    rcases statement.after_cases h.inStep j with ⟨⟨l, hl⟩, -⟩ | ⟨r, l, result, hr, hok, hchanges⟩
    · rw [hl]
      exact ih
    · exact hchanges.engine.trans ih

/-- In every reachable state the three places agree. -/
theorem Reachable.synced (hfits : ∀ r, fits r → r.FitsSchema) (h : Reachable fits db) :
    db.Synced :=
  ⟨h.exists_attained.choose_spec.recorded hfits, h.engine⟩

/-- A `Reachable` store has the partitions of its catalog and that of `Catalog.metadata`, in which
each relation has its record; `Catalog.load` gives the very catalog. -/
theorem Reachable.catalog_stored (h : Reachable Request.FitsSchema db) :
    (∀ name ∈ db.catalog.names, Catalog.isReserved name = false)
      ∧ db.store.partitions.keys.Perm (Catalog.metadata :: db.catalog.names)
      ∧ (∃ t, db.store.contents Catalog.metadata = .ok t ∧ t.entries.Perm
        (db.catalog.relations.entries.map fun e => (Utf8.encode e.1, e.2.encode)))
      ∧ (Catalog.load db.store).2 = .ok db.catalog := by
  have hsynced := h.synced fun _ => id
  obtain ⟨t, ht⟩ := hsynced.exists_metadata
  refine ⟨fun name hname => ?_, hsynced.partitions_perm,
    ⟨t, Store.contents_eq_ok_iff.2 ht, hsynced.records_perm ht⟩, hsynced.load_eq⟩
  obtain ⟨s, hs⟩ := Option.isSome_iff_exists.1 (SortedMap.find?_isSome_iff.2 hname)
  exact hsynced.unreserved name s hs

/-- A database in which a statement made one relation, of numbers. -/
def withNumbers : Database :=
  (Statement.request (.createTable "a" [⟨"n", .integer⟩] none)).run.after
    ⟨.empty, Store.volatile.create Catalog.metadata, {}⟩ []

theorem fitsSchema_numbers :
    Request.FitsSchema (.createTable "a" [⟨"n", .integer⟩] none) :=
  ⟨by decide, by decide, by simpa using (by decide : (Utf8.encode "n").length < 2 ^ 32)⟩

theorem reachable_withNumbers : Reachable Request.FitsSchema withNumbers :=
  (Reachable.created rfl (Database.create_eq rfl [])).requested fitsSchema_numbers []

theorem catalog_stored_withNumbers :
    withNumbers.catalog.names = ["a"]
      ∧ withNumbers.store.partitions.keys.Perm [Catalog.metadata, "a"]
      ∧ (Catalog.load withNumbers.store).2 = .ok withNumbers.catalog := by
  have hnames : withNumbers.catalog.names = ["a"] := rfl
  obtain ⟨-, hpartitions, -, hload⟩ := reachable_withNumbers.catalog_stored
  rw [hnames] at hpartitions
  exact ⟨hnames, hpartitions, hload⟩

end Session

end RelQuery
