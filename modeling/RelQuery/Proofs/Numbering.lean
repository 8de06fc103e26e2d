/-
  The numbers that rows without a primary key are stored under. All relations share them, and they
  ascend until they run out: as long as fewer than 2 ^ 64 were taken, the next one is above those in
  every table, and a row that is given it becomes the last of its table.

  Main statements: what entering tuples does to the records of a table
  (`Database.foldl_enter_of_keyless`, `Database.foldl_enter_of_keyed`), and that every state that
  statements lead to is numbered so (`Session.Attained.numbered`).
-/
import RelQuery.Proofs.Bytes
import RelQuery.Proofs.Served

namespace RelQuery

/-! ## Numbered tables -/

namespace Table

/-- Every key of the table is a number below this one. -/
def NumberedBelow (t : Table) (next : Nat) : Prop :=
  ∀ e ∈ t.entries, ∃ i < next, e.1 = Bytes.bigEndian 8 i

variable {t : Table} {next : Nat}

theorem numberedBelow_empty (next : Nat) : NumberedBelow .empty next := nofun

theorem NumberedBelow.mono (h : t.NumberedBelow next) {next' : Nat} (hle : next ≤ next') :
    t.NumberedBelow next' := fun e he =>
  (h e he).imp fun _ hi => ⟨Nat.lt_of_lt_of_le hi.1 hle, hi.2⟩

/-- An entry under the next number becomes the last. -/
theorem NumberedBelow.entries_insert (h : t.NumberedBelow next) (hnext : next < 2 ^ 64)
    (record : Bytes) : (t.insert (Bytes.bigEndian 8 next) record).entries
      = t.entries ++ [(Bytes.bigEndian 8 next, record)] := by
  refine SortedMap.insert_of_last fun e he => ?_
  obtain ⟨i, hi, hkey⟩ := h e he
  have hpow : Nat.pow 256 8 = 2 ^ 64 := rfl
  rw [hkey, Bytes.compare_bigEndian, hpow, Nat.mod_eq_of_lt (Nat.lt_trans hi hnext),
    Nat.mod_eq_of_lt hnext]
  exact Nat.compare_eq_lt.2 hi

theorem NumberedBelow.insert (h : t.NumberedBelow next) (hnext : next < 2 ^ 64)
    (record : Bytes) :
    NumberedBelow (t.insert (Bytes.bigEndian 8 next) record) (next + 1) := by
  intro e he
  rw [h.entries_insert hnext] at he
  rcases List.mem_append.1 he with he | he
  · exact h.mono (Nat.le_succ _) e he
  · exact ⟨next, Nat.lt_succ_self _, by rw [List.mem_singleton.1 he]⟩

end Table

/-! ## Entering tuples -/

theorem Tuple.primaryKey?_eq_none {u : Tuple} (h : u.schema.primaryKey = none) :
    u.primaryKey? = none := by
  rw [primaryKey?, h]
  rfl

theorem Request.numbers_insert {c : Catalog} {name : String} {rows : List (List Datum)}
    {r : Schema} (h : c.lookup? name = some r) : (insert name rows).numbers c
      = if r.primaryKey.isNone = true then rows.length else 0 := by
  rw [numbers, h]
  rfl

namespace Database

/-- Tuples without a primary key come after what is in the table, in their order. -/
theorem foldl_enter_of_keyless {tuples : List Tuple}
    (hkeys : ∀ u ∈ tuples, u.schema.primaryKey = none) {t : Table} {n : UInt64}
    (ht : t.NumberedBelow n.toNat) (hbound : n.toNat + tuples.length < 2 ^ 64) :
    (tuples.foldl enter (t, n)).2.toNat = n.toNat + tuples.length
      ∧ (tuples.foldl enter (t, n)).1.NumberedBelow (n.toNat + tuples.length)
      ∧ (tuples.foldl enter (t, n)).1.records = t.records ++ tuples.map Tuple.encode := by
  induction tuples generalizing t n with
  | nil => exact ⟨rfl, ht, (List.append_nil _).symm⟩
  | cons u tuples ih =>
    obtain ⟨hkey, hrest⟩ := List.forall_mem_cons.1 hkeys
    rw [List.length_cons] at hbound ⊢
    have hnext : (n + 1).toNat = n.toNat + 1 := by
      rw [UInt64.toNat_add]
      exact Nat.mod_eq_of_lt (by omega : n.toNat + 1 < 2 ^ 64)
    have henter : enter (t, n) u = (t.insert (Bytes.bigEndian 8 n.toNat) u.encode, n + 1) := by
      rw [enter, Tuple.primaryKey?_eq_none hkey]
    have hrecords : Table.records (t.insert (Bytes.bigEndian 8 n.toNat) u.encode)
        = t.records ++ [u.encode] := by
      rw [Table.records, ht.entries_insert n.toNat_lt, List.map_append]
      rfl
    have hbelow := ht.insert n.toNat_lt u.encode
    rw [← hnext] at hbelow
    have hfold := ih hrest hbelow (by omega)
    rw [hnext, hrecords, Nat.add_assoc, Nat.add_comm 1, List.append_assoc] at hfold
    rw [List.foldl_cons, henter]
    exact hfold

/-- Tuples with a primary key take no numbers, and the next number has no part in where they are
put. -/
theorem foldl_enter_of_keyed {tuples : List Tuple}
    (hkeys : ∀ u ∈ tuples, u.schema.primaryKey.isSome = true) (t : Table) (n n' : UInt64) :
    (tuples.foldl enter (t, n)).2 = n
      ∧ (tuples.foldl enter (t, n')).1 = (tuples.foldl enter (t, n)).1 := by
  induction tuples generalizing t with
  | nil => exact ⟨rfl, rfl⟩
  | cons u tuples ih =>
    obtain ⟨hkey, hrest⟩ := List.forall_mem_cons.1 hkeys
    obtain ⟨p, hp⟩ := Option.isSome_iff_exists.1 hkey
    obtain ⟨d, -, hd⟩ := Tuple.exists_primaryKey hp
    have henter : ∀ m, enter (t, m) u = (t.insert d.encode u.encode, m) := fun m => by
      rw [enter, hd]
    rw [List.foldl_cons, List.foldl_cons, henter, henter]
    exact ih hrest _

/-! ## Numbered databases -/

/-- The next number is this one, and above all that are in tables of relations without a primary
key. -/
structure Numbered (db : Database) (n : Nat) : Prop where
  next : db.store.nextId.toNat = n
  below : ∀ name r t, db.catalog.lookup? name = some r → r.primaryKey = none →
    db.store.table? name = some t → t.NumberedBelow n

variable {db db' : Database} {n : Nat} {request : Request}

theorem Numbered.withLayout (h : db.Numbered n) (l : Store.Layout) : (db.withLayout l).Numbered n
    where
  next := h.next
  below name r t hr hkey ht := h.below name r t hr hkey (table?_withLayout db l name ▸ ht)

/-- After a change only the table under its name is to be looked at. -/
theorem Numbered.of_target {n' : Nat} (h : db.Numbered n) (hstep : db.InStep)
    (hchanges : db.Changes request db') (hle : n ≤ n') (hnext : db'.store.nextId.toNat = n')
    (hthere : ∀ name r t, request.target? = some name → db'.catalog.lookup? name = some r →
      r.primaryKey = none → db'.store.table? name = some t → t.NumberedBelow n') :
    db'.Numbered n' := by
  refine ⟨hnext, fun name r t hr hkey ht => ?_⟩
  by_cases hname : request.target? = some name
  · exact hthere name r t hname hr hkey ht
  · rw [hchanges.lookup?_other hname] at hr
    rw [hchanges.table?_other hname (hstep.ne_metadata hr)] at ht
    exact (h.below name r t hr hkey ht).mono hle

/-- A change takes the numbers of its request. -/
theorem Numbered.changes (h : db.Numbered n) (hstep : db.InStep)
    (hchanges : db.Changes request db') (hbound : n + request.numbers db.catalog < 2 ^ 64) :
    db'.Numbered (n + request.numbers db.catalog) := by
  have hle := Nat.le_add_right n (request.numbers db.catalog)
  have hof := fun hnext => h.of_target hstep hchanges hle hnext
  cases hchanges with
  | @created _ _ _ s store _ hdef _ _ _ _ htables hnext =>
    obtain ⟨rfl, -⟩ := Schema.eq_of_define hdef
    refine hof ((congrArg UInt64.toNat hnext).trans h.next) fun name r t hname _ _ ht => ?_
    cases hname
    have ht : store.table? s.name = some t := ht
    rw [htables, if_pos rfl] at ht
    cases ht
    exact Table.numberedBelow_empty _
  | @dropped gone store _ _ _ _ _ _ hnext =>
    refine hof ((congrArg UInt64.toNat hnext).trans h.next) fun name r t hname hr _ _ => ?_
    cases hname
    have hr : (db.catalog.erase gone).lookup? gone = some r := hr
    rw [Catalog.lookup?_erase, if_pos rfl] at hr
    cases hr
  | @inserted filled rows q tuples store t₀ t₁ hq htuples ht₀ hnew hstore =>
    obtain rfl := Catalog.name_of_lookup? hq
    have hlength := (forall₂_of_mapM_eq_ok htuples).length_eq
    have hschema : ∀ u ∈ tuples, u.schema = q := fun u hu =>
      (Tuple.exists_of_mem_ofValues htuples hu).2
    rw [Request.numbers_insert hq] at hbound hof ⊢
    cases hkeys : q.primaryKey with
    | none =>
      rw [hkeys] at hbound hof
      have hbound : db.store.nextId.toNat + tuples.length < 2 ^ 64 := by
        rw [h.next, ← hlength]
        exact hbound
      have hbelow : t₀.NumberedBelow db.store.nextId.toNat :=
        h.next ▸ h.below _ _ _ hq hkeys ht₀
      obtain ⟨hcount, hentered, -⟩ := foldl_enter_of_keyless
        (fun u hu => (congrArg Schema.primaryKey (hschema u hu)).trans hkeys) hbelow hbound
      rw [hnew, h.next, ← hlength] at hcount hentered
      refine hof hcount fun name r t hname _ _ ht => ?_
      cases hname
      have ht : store.table? q.name = some t := ht
      rw [hstore.table?, if_pos rfl] at ht
      cases ht
      exact hentered
    | some p =>
      rw [hkeys] at hof
      obtain ⟨hcount, -⟩ := foldl_enter_of_keyed (fun u hu => by rw [hschema u hu, hkeys]; rfl) t₀
        db.store.nextId db.store.nextId
      rw [hnew] at hcount
      refine hof ((congrArg UInt64.toNat hcount).trans h.next) fun name r t hname hr hkey _ => ?_
      cases hname
      have hr : db.catalog.lookup? q.name = some r := hr
      rw [hq] at hr
      cases hr
      rw [hkeys] at hkey
      cases hkey

end Database

namespace Session

variable {fits : Request → Prop} {db : Database} {n : Nat} {statement : Statement}
  {j : Log.Journal}

theorem Statement.numbers_of_ok {r : Request} (hr : statement.request? = .ok r) {result : Result}
    (hok : statement.run.result db j = .ok result) :
    statement.numbers db j = r.numbers db.catalog := by
  rw [numbers, hr, hok]

theorem Statement.numbers_of_error {e : Error} (h : statement.run.result db j = .error e) :
    statement.numbers db j = 0 := by
  rw [numbers, h]
  cases statement.request? <;> rfl

theorem Statement.numbers_of_isRead {r : Request} (hr : statement.request? = .ok r)
    (hread : r.isRead = true) : statement.numbers db j = 0 := by
  rw [numbers, hr]
  cases statement.run.result db j with
  | error e => rfl
  | ok result =>
    cases r with
    | createTable | dropTable | insert => cases hread
    | select | explain | showTables => rfl

/-- As long as numbers do not run out, every state that statements lead to is numbered. -/
theorem Attained.numbered (h : Attained fits n db) (hn : n < 2 ^ 64) : db.Numbered n := by
  induction h with
  | @created config db j h =>
    obtain ⟨l, hl⟩ := Database.create_gives config j
    rw [hl] at h
    cases h
    have hcreate : ((Database.freshStore config).create Catalog.metadata).nextId
        = (Database.freshStore config).nextId :=
      Store.nextId_apply (c := .create Catalog.metadata) rfl
    have hfresh : (Database.freshStore config).nextId = 0 := by
      unfold Database.freshStore
      split <;> rfl
    refine ⟨congrArg UInt64.toNat (hcreate.trans hfresh), fun name r t hr => ?_⟩
    cases hr
  | configured _ _ _ ih =>
    have hnumbered := ih hn
    exact ⟨hnumbered.next, hnumbered.below⟩
  | @executed n db h statement j hfit ih =>
    have hnumbered := ih (by omega)
    rcases statement.after_cases h.inStep j with
      ⟨⟨l, hl⟩, hnone⟩ | ⟨r, l, result, hr, hok, hchanges⟩
    · have hzero : statement.numbers db j = 0 := by
        rcases hnone with ⟨r, hr, hread⟩ | ⟨e, he⟩
        · exact Statement.numbers_of_isRead hr hread
        · exact Statement.numbers_of_error he
      rw [hl, hzero]
      exact hnumbered.withLayout l
    · rw [Statement.numbers_of_ok hr hok] at hn ⊢
      exact (hnumbered.withLayout l).changes (h.inStep.withLayout l) hchanges hn

end Session

end RelQuery
