/-
  A database is what its history says: the requests that succeeded, in their order, determine what
  every relation holds, and reading a relation shows just that.

  Creating a relation starts it with nothing, whatever had its name before; dropping one takes it
  away; inserting adds the rows in order (`Ledger.apply`). Statements that fail or only read have no
  part in it. Rows without a primary key are given numbers that all relations share, so the ledger
  counts these, and the main statement asks that they do not run out.

  Main statement: `Session.History.shown`.
-/
import RelQuery.Proofs.Ledger.Holdings
import RelQuery.Proofs.Query.Select

namespace RelQuery

open Catalog (metadata)

/-! ## Ledgers -/

/-- What each relation holds, by name, and how many rows were given a number. -/
structure Ledger where
  holdings : String → Option Holdings
  numbered : Nat

namespace Ledger

/-- No relations. -/
def empty : Ledger := ⟨fun _ => none, 0⟩

/-- What a request does that succeeds. -/
def apply (l : Ledger) : Request → Ledger
  | .createTable name _ primaryKey =>
    { l with holdings := Function.update l.holdings name (some (.nothing primaryKey)) }
  | .dropTable name => { l with holdings := Function.update l.holdings name none }
  | .insert name rows =>
    match l.holdings name with
    | some h =>
      { holdings := Function.update l.holdings name (some (rows.foldl Holdings.add h))
        numbered := l.numbered + h.numbersFor rows.length }
    | none => l
  | .select _ | .explain _ | .showTables => l

/-- What requests do that succeed one after the other. -/
def after (requests : List Request) : Ledger := requests.foldl apply empty

theorem after_append (requests : List Request) (r : Request) :
    after (requests ++ [r]) = (after requests).apply r := List.foldl_concat ..

theorem apply_of_isRead (l : Ledger) {r : Request} (h : r.isRead = true) : l.apply r = l := by
  cases r with
  | select | explain | showTables => rfl
  | createTable | dropTable | insert => cases h

theorem numbered_le_apply (l : Ledger) (r : Request) : l.numbered ≤ (l.apply r).numbered := by
  cases r with
  | insert name rows =>
    rw [apply]
    split
    · exact Nat.le_add_right _ _
    · exact Nat.le_refl _
  | createTable | dropTable | select | explain | showTables => exact Nat.le_refl _

/-- A request has no part in what other relations hold. -/
theorem holdings_apply_other (l : Ledger) {r : Request} {name : String}
    (hother : r.target? ≠ some name) : (l.apply r).holdings name = l.holdings name := by
  have hne : ∀ {target}, r.target? = some target → name ≠ target := by
    rintro target htarget rfl
    exact hother htarget
  cases r with
  | createTable | dropTable => exact Function.update_of_ne (hne rfl) ..
  | insert target rows =>
    rw [apply]
    split
    · exact Function.update_of_ne (hne rfl) ..
    · rfl
  | select | explain | showTables => rfl

end Ledger

/-! ## Databases that follow a ledger -/

/-- Tuples of rows have the values of these. -/
theorem Tuple.map_values_of_mapM {r : Schema} {rows : List (List Datum)} {tuples : List Tuple}
    (h : rows.mapM (ofValues r) = .ok tuples) : tuples.map (·.values) = rows := by
  have hall := forall₂_of_mapM_eq_ok h
  clear h
  induction hall with
  | nil => rfl
  | cons hrow _ ih => rw [List.map_cons, ih, (ofValues_eq_ok hrow).2]

namespace Database

/-- The relations of the catalog are those of the ledger, and their tables have what these hold. -/
structure Follows (db : Database) (l : Ledger) : Prop where
  next : db.store.nextId.toNat = l.numbered
  absent : ∀ name, db.catalog.lookup? name = none → l.holdings name = none
  present : ∀ name r, db.catalog.lookup? name = some r → ∃ t h, db.store.table? name = some t
    ∧ l.holdings name = some h ∧ h.In r l.numbered t

namespace Follows

variable {db db' : Database} {l : Ledger}

theorem withLayout (h : db.Follows l) (layout : Store.Layout) :
    (db.withLayout layout).Follows l where
  next := h.next
  absent := h.absent
  present name r hr := by
    rw [table?_withLayout]
    exact h.present name r hr

/-- Only the relation that a change names has to be looked at. -/
theorem of_target (h : db.Follows l) (hstep : db.InStep) {request : Request}
    (hchanges : db.Changes request db')
    (hnext : db'.store.nextId.toNat = (l.apply request).numbered)
    (htarget : ∀ name, request.target? = some name →
      (db'.catalog.lookup? name = none → (l.apply request).holdings name = none)
        ∧ ∀ r, db'.catalog.lookup? name = some r → ∃ t h, db'.store.table? name = some t
          ∧ (l.apply request).holdings name = some h ∧ h.In r (l.apply request).numbered t) :
    db'.Follows (l.apply request) := by
  refine ⟨hnext, fun name hname => ?_, fun name r hr => ?_⟩
  · by_cases hsame : request.target? = some name
    · exact (htarget name hsame).1 hname
    · rw [hchanges.lookup?_other hsame] at hname
      rw [l.holdings_apply_other hsame]
      exact h.absent name hname
  · by_cases hsame : request.target? = some name
    · exact (htarget name hsame).2 r hr
    · rw [hchanges.lookup?_other hsame] at hr
      obtain ⟨t, holdings, ht, hholdings, hin⟩ := h.present name r hr
      rw [hchanges.table?_other hsame (hstep.ne_metadata hr), l.holdings_apply_other hsame]
      exact ⟨t, holdings, ht, hholdings, hin.mono (l.numbered_le_apply request)⟩

/-- Rows that are inserted follow those that are held. -/
theorem inserted (h : db.Follows l) {name : String} {rows : List (List Datum)} {r : Schema}
    {tuples : List Tuple} {t t' : Table} {next : UInt64}
    (hfits : ∀ values ∈ rows, ∀ d ∈ values, d.Fits)
    (hnumbers : (l.apply (.insert name rows)).numbered < 2 ^ 64)
    (hr : db.catalog.lookup? name = some r) (htuples : rows.mapM (Tuple.ofValues r) = .ok tuples)
    (ht : db.store.table? name = some t)
    (hnew : tuples.foldl enter (t, db.store.nextId) = (t', next)) :
    next.toNat = (l.apply (.insert name rows)).numbered
      ∧ ∃ holdings, (l.apply (.insert name rows)).holdings name = some holdings
        ∧ holdings.In r (l.apply (.insert name rows)).numbered t' := by
  obtain ⟨u, holdings, hu, hholdings, hin⟩ := h.present _ r hr
  rw [ht] at hu
  cases hu
  have hvalues := Tuple.map_values_of_mapM htuples
  have hlength : tuples.length = rows.length := by rw [← hvalues, List.length_map]
  have htakes : ∀ u ∈ tuples, r.Takes u.values ∧ u.schema = r := by
    intro u hu
    obtain ⟨hmem, rfl⟩ := Tuple.exists_of_mem_ofValues htuples hu
    exact ⟨⟨u.typed, hfits _ hmem⟩, rfl⟩
  have happly : l.apply (.insert name rows)
      = ⟨Function.update l.holdings name (some (rows.foldl Holdings.add holdings)),
        l.numbered + holdings.numbersFor rows.length⟩ := by
    rw [Ledger.apply, hholdings]
  rw [happly] at hnumbers ⊢
  rw [← h.next] at hin hnumbers
  obtain ⟨hcount, hentered⟩ := hin.foldl_enter htakes (by rw [hlength]; exact hnumbers)
  rw [hnew, hvalues] at hentered
  rw [hnew, hlength, h.next] at hcount
  exact ⟨hcount, _, Function.update_self .., hcount ▸ hentered⟩

/-- Every change of a database is what the ledger says of the request. -/
theorem changes (h : db.Follows l) (hstep : db.InStep) {request : Request}
    (hfits : request.FitsRows) (hnumbers : (l.apply request).numbered < 2 ^ 64)
    (hchanges : db.Changes request db') : db'.Follows (l.apply request) := by
  have hfollows := h.of_target hstep hchanges
  cases hchanges with
  | @created _ _ _ s store t hdef hnew ht he hs htables hnext =>
    obtain ⟨rfl, -, rfl⟩ := Schema.eq_of_define hdef
    refine hfollows ((congrArg UInt64.toNat hnext).trans h.next) ?_
    rintro name ⟨⟩
    have hlookup := Catalog.lookup?_insert db.catalog s s.name
    rw [if_pos rfl] at hlookup
    have htable : store.table? s.name = some .empty := by rw [htables, if_pos rfl]
    refine ⟨fun hnone => ?_, fun r hr => ?_⟩
    · rw [hlookup] at hnone
      cases hnone
    · rw [hlookup] at hr
      cases hr
      exact ⟨.empty, _, htable, Function.update_self .., Holdings.in_nothing ..⟩
  | @dropped gone store t ht hold he hs htables hnext =>
    refine hfollows ((congrArg UInt64.toNat hnext).trans h.next) ?_
    rintro name ⟨⟩
    refine ⟨fun _ => Function.update_self .., fun r hr => ?_⟩
    rw [Catalog.lookup?_erase, if_pos rfl] at hr
    cases hr
  | @inserted _ rows r tuples store t t' hr htuples ht hnew hstore =>
    obtain rfl := Catalog.name_of_lookup? hr
    obtain ⟨hnext, holdings, hholdings, hin⟩ := h.inserted hfits hnumbers hr htuples ht hnew
    refine hfollows hnext ?_
    rintro name ⟨⟩
    have htable : store.table? r.name = some t' := by rw [hstore.table?, if_pos rfl]
    refine ⟨fun hnone => ?_, fun q hq => ?_⟩
    · have hnone : db.catalog.lookup? r.name = none := hnone
      rw [hr] at hnone
      cases hnone
    · have hq : db.catalog.lookup? r.name = some q := hq
      rw [hr] at hq
      cases hq
      exact ⟨t', holdings, htable, hholdings, hin⟩

end Follows

end Database

/-! ## Histories -/

namespace Session

/-- The databases in memory that statements lead to from an empty one, with the requests that
succeeded on the way, in order. -/
inductive History : List Request → Database → Prop
  | created {config : Config} {db : Database} {j : Log.Journal} (hdir : config.dataDir = none)
    (h : ((Database.create config).run j).1 = .ok db) : History [] db
  | configured {requests : List Request} {db : Database} (h : History requests db)
    (hashJoin : Bool) (maxBuildRows : Nat) :
    History requests { db with config := { db.config with hashJoin, maxBuildRows } }
  | failed {requests : List Request} {db : Database} (h : History requests db)
    (statement : Statement) (j : Log.Journal) {e : Error}
    (he : statement.run.result db j = .error e) : History requests (statement.run.after db j)
  | succeeded {requests : List Request} {db : Database} (h : History requests db)
    (statement : Statement) (j : Log.Journal) {r : Request} {result : Result}
    (hr : statement.request? = .ok r) (hok : statement.run.result db j = .ok result) :
    History (requests ++ [r]) (statement.run.after db j)

variable {fits : Request → Prop} {requests : List Request} {db : Database}

/-- Every reachable database has a history. -/
theorem Reachable.exists_history (h : Reachable fits db) :
    ∃ requests, History requests db ∧ ∀ r ∈ requests, fits r := by
  induction h with
  | created hdir h => exact ⟨[], .created hdir h, by simp⟩
  | configured _ hashJoin maxBuildRows ih =>
    obtain ⟨requests, hhistory, hfits⟩ := ih
    exact ⟨requests, hhistory.configured hashJoin maxBuildRows, hfits⟩
  | @executed db _ statement j hfit ih =>
    obtain ⟨requests, hhistory, hfits⟩ := ih
    cases hresult : statement.run.result db j with
    | error e => exact ⟨requests, hhistory.failed statement j hresult, hfits⟩
    | ok result =>
      cases hr : statement.request? with
      | error e =>
        rw [(Statement.run_of_error hr db j).1] at hresult
        cases hresult
      | ok r =>
        refine ⟨requests ++ [r], hhistory.succeeded statement j hr hresult, fun r' hr' => ?_⟩
        rcases List.mem_append.1 hr' with hr' | hr'
        · exact hfits r' hr'
        · rw [List.mem_singleton.1 hr']
          exact hfit r hr ⟨result, hresult⟩

/-- A database with a history is reachable. -/
theorem History.reachable (h : History requests db) (hfits : ∀ r ∈ requests, fits r) :
    Reachable fits db := by
  induction h with
  | created hdir h => exact .created hdir h
  | configured _ hashJoin maxBuildRows ih => exact (ih hfits).configured hashJoin maxBuildRows
  | failed _ statement j he ih =>
    refine (ih hfits).executed statement j fun r _ hok => ?_
    obtain ⟨result, hok⟩ := hok
    rw [he] at hok
    cases hok
  | @succeeded _ db _ statement j r result hr hok ih =>
    obtain ⟨hold, hlast⟩ := List.forall_mem_append.1 hfits
    refine (ih hold).executed statement j fun r' hr' _ => ?_
    rw [hr] at hr'
    cases hr'
    exact hlast r (List.mem_singleton_self r)

/-- A database follows the ledger of its history. -/
theorem History.follows (h : History requests db) (hfits : ∀ r ∈ requests, r.FitsRows)
    (hnumbers : (Ledger.after requests).numbered < 2 ^ 64) :
    db.Follows (Ledger.after requests) := by
  induction h with
  | @created config db j hdir h =>
    rw [Database.create_eq hdir] at h
    cases h
    refine ⟨rfl, fun _ _ => rfl, fun name r hr => ?_⟩
    cases hr
  | configured _ _ _ ih =>
    have hfollows := ih hfits hnumbers
    exact ⟨hfollows.next, hfollows.absent, hfollows.present⟩
  | @failed requests db h statement j e he ih =>
    rcases statement.after_cases (h.reachable hfits).inStep j with
      ⟨⟨l, hl⟩, -⟩ | ⟨r, l, result, hr, hok, hchanges⟩
    · rw [hl]
      exact (ih hfits hnumbers).withLayout l
    · rw [he] at hok
      cases hok
  | @succeeded requests db h statement j r result hr hok ih =>
    obtain ⟨hold, hlast⟩ := List.forall_mem_append.1 hfits
    rw [Ledger.after_append] at hnumbers ⊢
    have hfollows := ih hold
      (Nat.lt_of_le_of_lt (Ledger.numbered_le_apply _ r) hnumbers)
    have hstep := (h.reachable hold).inStep
    rcases statement.after_cases hstep j with
      ⟨⟨l, hl⟩, ⟨r', hr', hread⟩ | ⟨e, he⟩⟩ | ⟨r', l, result', hr', -, hchanges⟩
    · rw [hr] at hr'
      cases hr'
      rw [hl, Ledger.apply_of_isRead _ hread]
      exact hfollows.withLayout l
    · rw [he] at hok
      cases hok
    · rw [hr] at hr'
      cases hr'
      exact (hfollows.withLayout l).changes (hstep.withLayout l)
        (hlast r (List.mem_singleton_self r)) hnumbers hchanges

/-- An insertion reports the number of rows that it was given. -/
theorem Statement.affected_of_insert (hstep : db.InStep) {statement : Statement} {name : String}
    {rows : List (List Datum)} (hr : statement.request? = .ok (.insert name rows))
    {j : Log.Journal} {result : Result} (hok : statement.run.result db j = .ok result) :
    result.outcome.affected = rows.length := by
  obtain ⟨k, hresult, -⟩ := Statement.run_of_ok hr db j
  rw [hresult, hstep.result_insert] at hok
  generalize htuples : (db.catalog.lookup name >>= fun r => rows.mapM (Tuple.ofValues r)) = tuples
    at hok
  cases tuples with
  | error e => cases hok
  | ok tuples =>
    cases hok
    obtain ⟨r, -, htuples⟩ := exists_of_bind_eq_ok htuples
    exact (forall₂_of_mapM_eq_ok htuples).length_eq.symm

/-- A database with a `History` has just the relations of its `Ledger`. Asking for all rows of one
shows what it holds (`Holdings.Shows`), and an insertion reports as many rows as it was given. -/
theorem History.shown (h : History requests db) (hfits : ∀ r ∈ requests, r.FitsRows)
    (hnumbers : (Ledger.after requests).numbered < 2 ^ 64) :
    (∀ name, (Ledger.after requests).holdings name = none ↔ db.catalog.lookup? name = none)
      ∧ (∀ name holdings, (Ledger.after requests).holdings name = some holdings →
        ∃ rows, holdings.Shows rows
          ∧ ∀ (statement : Statement) j, statement.request? = .ok (.select (.all name)) →
            ∃ result, statement.run.result db j = .ok result ∧ result.outcome.rows = rows)
      ∧ ∀ (statement : Statement) j name rows result,
        statement.request? = .ok (.insert name rows) → statement.run.result db j = .ok result →
          result.outcome.affected = rows.length := by
  have hreachable := h.reachable hfits
  have hfollows := h.follows hfits hnumbers
  have habsent : ∀ name, (Ledger.after requests).holdings name = none
      ↔ db.catalog.lookup? name = none := by
    refine fun name => ⟨fun hnone => ?_, hfollows.absent name⟩
    cases hr : db.catalog.lookup? name with
    | none => rfl
    | some r =>
      obtain ⟨t, holdings, -, hholdings, -⟩ := hfollows.present name r hr
      rw [hnone] at hholdings
      cases hholdings
  refine ⟨habsent, fun name holdings hholdings => ?_, fun statement j name rows result hr hok => ?_⟩
  · cases hr : db.catalog.lookup? name with
    | none =>
      rw [(habsent name).2 hr] at hholdings
      cases hholdings
    | some r =>
      obtain ⟨t, holdings', ht, hholdings', hin⟩ := hfollows.present name r hr
      rw [hholdings] at hholdings'
      cases hholdings'
      obtain rfl := Catalog.name_of_lookup? hr
      have htuples : db.store.tuples r
          = t.entries.filterMap fun e => (Tuple.decode r e.2).toOption := by
        rw [Store.tuples, Store.contents_eq_ok_iff.2 ht]
      refine ⟨(db.store.tuples r).map (·.values), htuples ▸ hin.shows, fun statement j hq => ?_⟩
      exact ⟨_, Statement.run_all hreachable.intact.served hr hq j, rfl⟩
  · exact Statement.affected_of_insert hreachable.inStep hr hok

/-! ## A key that is given twice -/

/-- A relation with a primary key. -/
def createPairs : Request := .createTable "a" [⟨"n", .integer⟩, ⟨"s", .string⟩] (some 0)

/-- Two rows for one key. -/
def insertPairs : Request := .insert "a" [[.int 7, .string "x"], [.int 7, .string "y"]]

/-- The database after these requests. -/
def withPairs : Database :=
  (Statement.request insertPairs).run.after ((Statement.request createPairs).run.after
    ⟨.empty, Store.volatile.create metadata, {}⟩ []) []

theorem history_withPairs : History [createPairs, insertPairs] withPairs := by
  have hempty : History [] ⟨.empty, Store.volatile.create metadata, {}⟩ :=
    .created rfl (Database.create_eq rfl [])
  have hcreate : (Statement.request createPairs).run.result
      ⟨.empty, Store.volatile.create metadata, {}⟩ [] = .ok ⟨.done, false⟩ := by decide +kernel
  have hinsert : (Statement.request insertPairs).run.result
      ((Statement.request createPairs).run.after ⟨.empty, Store.volatile.create metadata, {}⟩ []) []
        = .ok ⟨⟨[], [], 2⟩, false⟩ := by decide +kernel
  exact (hempty.succeeded (.request createPairs) [] rfl hcreate).succeeded (.request insertPairs) []
    rfl hinsert

theorem shown_withPairs :
    ∃ result, (Statement.request (.select (.all "a"))).run.result withPairs [] = .ok result
      ∧ ∀ row, row ∈ result.outcome.rows ↔ row = [.int 7, .string "y"] := by
  have hfits : ∀ r ∈ [createPairs, insertPairs], r.FitsRows := by
    have hstrings : ∀ s ∈ ["x", "y"], (Utf8.encode s).length < 2 ^ 32 := by decide
    simpa [createPairs, insertPairs, Request.FitsRows, Datum.Fits] using hstrings
  have hholdings : (Ledger.after [createPairs, insertPairs]).holdings "a"
      = some (.keyed 0 (Function.update (Function.update (fun _ => none) (.int 7)
        (some [.int 7, .string "x"])) (.int 7) (some [.int 7, .string "y"]))) := rfl
  obtain ⟨-, hshown, -⟩ := history_withPairs.shown hfits (by decide)
  obtain ⟨rows, ⟨entries, rfl, hentries, -⟩, hrun⟩ := hshown "a" _ hholdings
  obtain ⟨result, hok, hrows⟩ := hrun (.request (.select (.all "a"))) [] rfl
  refine ⟨result, hok, fun row => ?_⟩
  rw [hrows, List.mem_map]
  constructor
  · rintro ⟨⟨d, row⟩, hmem, rfl⟩
    have hrow := (hentries d row).1 hmem
    by_cases hd : d = .int 7
    · rw [hd, Function.update_self] at hrow
      exact (Option.some.inj hrow).symm
    · rw [Function.update_of_ne hd, Function.update_of_ne hd] at hrow
      cases hrow
  · rintro rfl
    exact ⟨(.int 7, _), (hentries _ _).2 (Function.update_self ..), rfl⟩

end Session

end RelQuery
