/-
  What the partitions of relations hold: in every state that statements lead to, each entry in them
  is a tuple of the relation under the tuple's key (`Schema.IsEntry`), so a query can read all of
  them.

  A partition that a dropped relation left behind would break this for the next relation of that
  name; there is none, as the catalog and the partitions are in step.

  Main statements: `Session.Attained.intact`, `Session.Reachable.served`.
-/
import RelQuery.Proofs.Database
import RelQuery.Proofs.Plan.Rows

namespace RelQuery

/-- What a request names or inserts can be counted in the fields of its records. -/
def Request.Fits : Request → Prop
  | .insert _ rows => ∀ values ∈ rows, ∀ d ∈ values, d.Fits
  | r => r.FitsSchema

/-- What a request inserts can be. -/
def Request.FitsRows : Request → Prop
  | .insert _ rows => ∀ values ∈ rows, ∀ d ∈ values, d.Fits
  | _ => True

theorem Request.Fits.rows {r : Request} (h : r.Fits) : r.FitsRows := by
  cases r with
  | insert => exact h
  | createTable | dropTable | select | showTables | explain => trivial

theorem Store.serves_iff {s : Store} {r : Schema} : s.Serves r ↔ ∃ t, s.table? r.name = some t
    ∧ ∀ e ∈ t.entries, ∃ u, Tuple.decode r e.2 = .ok u := by
  simp only [Store.Serves, Store.contents_eq_ok_iff]

/-! ## Tuples and their keys -/

namespace Tuple

/-- A tuple of values has these values and no other. -/
theorem ofValues_eq_ok {r : Schema} {values : List Datum} {u : Tuple}
    (h : ofValues r values = .ok u) : u.schema = r ∧ u.values = values := by
  unfold ofValues at h
  split at h
  · cases h
    exact ⟨rfl, rfl⟩
  · cases h

/-- The values of an inserted tuple were given. -/
theorem exists_of_mem_ofValues {r : Schema} {rows : List (List Datum)} {tuples : List Tuple}
    (h : rows.mapM (ofValues r) = .ok tuples) {u : Tuple} (hu : u ∈ tuples) :
    u.values ∈ rows ∧ u.schema = r := by
  obtain ⟨values, hvalues, hrow⟩ := exists_mem_of_forall₂ (forall₂_of_mapM_eq_ok h).flip hu
  obtain ⟨hschema, rfl⟩ := ofValues_eq_ok hrow
  exact ⟨hvalues, hschema⟩

/-- A tuple's key is that of its value at the primary key, or the eight bytes of some number if its
relation has none. -/
def HasKey (u : Tuple) (key : Bytes) : Prop :=
  match u.schema.primaryKey with
  | some p => (u.values[p]?).map Datum.encode = some key
  | none => ∃ id : UInt64, key = Bytes.bigEndian 8 id.toNat

end Tuple

/-- The record is that of a tuple of the relation, under the tuple's key. -/
def Schema.IsEntry (r : Schema) (e : Bytes × Bytes) : Prop :=
  ∃ u, Tuple.decode r e.2 = .ok u ∧ u.HasKey e.1

namespace Database

/-- The table after a tuple was entered: its record is put under its key. -/
theorem enter_eq (t : Table) (n : UInt64) (u : Tuple) :
    ∃ key m, enter (t, n) u = (t.insert key u.encode, m) ∧ u.HasKey key := by
  unfold enter Tuple.HasKey
  cases hp : u.schema.primaryKey with
  | none =>
    have hkey : u.primaryKey? = none := by rw [Tuple.primaryKey?, hp]; rfl
    rw [hkey]
    exact ⟨_, _, rfl, n, rfl⟩
  | some p =>
    obtain ⟨d, hd, hkey⟩ := Tuple.exists_primaryKey hp
    rw [hkey]
    exact ⟨_, _, rfl, congrArg (Option.map Datum.encode) hd⟩

/-- Entries of a table into which tuples were entered are old, or records of the tuples under their
keys. -/
theorem mem_foldl_enter {tuples : List Tuple} {t : Table} {n : UInt64} {e : Bytes × Bytes}
    (h : e ∈ (tuples.foldl enter (t, n)).1.entries) :
    e ∈ t.entries ∨ ∃ u ∈ tuples, e.2 = u.encode ∧ u.HasKey e.1 := by
  induction tuples generalizing t n with
  | nil => exact .inl h
  | cons u tuples ih =>
    obtain ⟨key, m, henter, hkey⟩ := enter_eq t n u
    rw [List.foldl_cons, henter] at h
    rcases ih h with hold | ⟨u', hu', hentry⟩
    · rcases SortedMap.mem_insertEntry hold with rfl | hold
      · exact .inr ⟨u, List.mem_cons_self, rfl, hkey⟩
      · exact .inl hold
    · exact .inr ⟨u', List.mem_cons_of_mem _ hu', hentry⟩

/-- Tuples that are inserted can be read back. -/
theorem decode_inserted {r : Schema} {rows : List (List Datum)} {tuples : List Tuple}
    (h : rows.mapM (Tuple.ofValues r) = .ok tuples)
    (hfits : ∀ values ∈ rows, ∀ d ∈ values, d.Fits) {u : Tuple} (hu : u ∈ tuples) :
    Tuple.decode r u.encode = .ok u := by
  obtain ⟨hvalues, rfl⟩ := Tuple.exists_of_mem_ofValues h hu
  exact Tuple.decode_encode (hfits _ hvalues)

/-! ## Intact relations -/

/-- Every relation of the catalog has its partition, and each of the records there decodes. -/
def Served (db : Database) : Prop :=
  ∀ name r, db.catalog.lookup? name = some r → db.store.Serves r

theorem Served.partitions {db : Database} (h : db.Served) :
    ∀ r : Schema, db.catalog.lookup? r.name = some r → ∃ t, db.store.contents r.name = .ok t := by
  intro r hr
  obtain ⟨t, ht, -⟩ := h r.name r hr
  exact ⟨t, ht⟩

/-- Every relation of the catalog has its partition, which holds its tuples under their keys. -/
def Intact (db : Database) : Prop :=
  ∀ name r, db.catalog.lookup? name = some r →
    ∃ t, db.store.table? r.name = some t ∧ ∀ e ∈ t.entries, r.IsEntry e

theorem Intact.served {db : Database} (h : db.Intact) : db.Served := by
  intro name r hr
  obtain ⟨t, ht, hentries⟩ := h name r hr
  exact Store.serves_iff.2 ⟨t, ht, fun e he => (hentries e he).imp fun _ => And.left⟩

theorem Intact.withLayout {db : Database} (h : db.Intact) (l : Store.Layout) :
    (db.withLayout l).Intact := by
  intro name r hr
  rw [table?_withLayout]
  exact h name r hr

/-- The relation that a change names gets an empty table, or no table, or entries of its tuples, and
all others keep theirs. -/
theorem Intact.changes {db db' : Database} {request : Request} (h : db.Intact)
    (hstep : db.InStep) (hfits : request.FitsRows) (hchanges : db.Changes request db') :
    db'.Intact := by
  intro name r hr
  by_cases htarget : request.target? = some name
  · cases hchanges with
    | created hdef _ _ _ _ htables =>
      obtain ⟨rfl, -⟩ := Schema.eq_of_define hdef
      cases htarget
      rw [Catalog.lookup?_insert, if_pos rfl] at hr
      cases hr
      exact ⟨.empty, by rw [htables, if_pos rfl], nofun⟩
    | dropped =>
      cases htarget
      rw [Catalog.lookup?_erase, if_pos rfl] at hr
      cases hr
    | @inserted _ _ q tuples store t t' hq htuples ht hnew hstore =>
      cases htarget
      rw [hr] at hq
      cases hq
      obtain ⟨u, hu, hold⟩ := h name r hr
      rw [ht] at hu
      cases hu
      refine ⟨t', by rw [hstore.table?, if_pos rfl], fun e he => ?_⟩
      have hentered : e ∈ (tuples.foldl enter (t, db.store.nextId)).1.entries := by rwa [hnew]
      rcases mem_foldl_enter hentered with he | ⟨u, hu, heq, hkey⟩
      · exact hold e he
      · exact ⟨u, by rw [heq]; exact decode_inserted htuples hfits hu, hkey⟩
  · rw [hchanges.lookup?_other htarget] at hr
    have hmeta := hstep.ne_metadata hr
    obtain rfl := Catalog.name_of_lookup? hr
    rw [hchanges.table?_other htarget hmeta]
    exact h r.name r hr

end Database

namespace Session

variable {db : Database}

/-- In every state that statements lead to, all entries of relations are tuples under their keys. -/
theorem Attained.intact {n : Nat} (h : Attained Request.FitsRows n db) : db.Intact := by
  induction h with
  | @created config db j h =>
    obtain ⟨l, hl⟩ := Database.create_gives config j
    rw [hl] at h
    cases h
    intro name r hr
    cases hr
  | configured h _ _ ih => exact ih
  | @executed n db h statement j hfit ih =>
    rcases statement.after_cases h.inStep j with ⟨⟨l, hl⟩, -⟩ | ⟨r, l, result, hr, hok, hchanges⟩
    · rw [hl]
      exact ih.withLayout l
    · exact (ih.withLayout l).changes (h.inStep.withLayout l) (hfit r hr ⟨result, hok⟩) hchanges

theorem Reachable.intact (h : Reachable Request.FitsRows db) : db.Intact :=
  h.exists_attained.choose_spec.intact

/-- So all records of relations can be read. -/
theorem Reachable.served (h : Reachable Request.Fits db) : db.Served :=
  (h.mono fun _ => Request.Fits.rows).intact.served

end Session

end RelQuery
