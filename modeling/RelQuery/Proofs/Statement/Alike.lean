/-
  Databases that answer alike.

  Two databases agree on a name if it has the same schema in both, and a table with the same records
  in the same order. The keys have to be the same only if they are primary keys: numbers that were
  given to rows are never shown, and a new row comes last whatever number it gets, as long as these
  do not run out.

  What a request to create, drop or fill a relation answers depends on the schema under the name of
  that relation, and where databases agreed on the name they still do. All that reads sees schemas
  and records only. So agreement on every name is a simulation (`Database.Alike`): each statement
  gives the same answer in both databases and leaves alike ones.

  Main statement: `Session.answers_alike`.
-/
import RelQuery.Proofs.Numbering
import RelQuery.Proofs.Operator.Alike
import RelQuery.Proofs.Query.Binding

namespace RelQuery

open Log (Journal)

/-! ## Tables under other numbers -/

/-- Tables of a relation with the same records keep the same records when the same tuples are
entered, and if the tables were the same they stay so. -/
theorem Database.foldl_enter_alike {r : Schema} {tuples : List Tuple} (n n' : UInt64)
    (hschema : ∀ u ∈ tuples, u.schema = r) {t t' : Table}
    (hrecords : t'.records = t.records) (hsame : r.primaryKey.isSome = true → t' = t)
    (hnumbered : r.primaryKey = none →
      t.NumberedBelow n.toNat ∧ n.toNat + tuples.length < 2 ^ 64)
    (hnumbered' : r.primaryKey = none →
      t'.NumberedBelow n'.toNat ∧ n'.toNat + tuples.length < 2 ^ 64) :
    (tuples.foldl enter (t', n')).1.records = (tuples.foldl enter (t, n)).1.records
      ∧ (r.primaryKey.isSome = true →
        (tuples.foldl enter (t', n')).1 = (tuples.foldl enter (t, n)).1) := by
  cases hkey : r.primaryKey with
  | none =>
    have hkeys : ∀ u ∈ tuples, u.schema.primaryKey = none := fun u hu => by rw [hschema u hu, hkey]
    obtain ⟨hbelow, hbound⟩ := hnumbered hkey
    obtain ⟨hbelow', hbound'⟩ := hnumbered' hkey
    obtain ⟨-, -, hentered⟩ := foldl_enter_of_keyless hkeys hbelow hbound
    obtain ⟨-, -, hentered'⟩ := foldl_enter_of_keyless hkeys hbelow' hbound'
    exact ⟨by rw [hentered, hentered', hrecords], nofun⟩
  | some p =>
    have hkeys : ∀ u ∈ tuples, u.schema.primaryKey.isSome = true := fun u hu => by
      rw [hschema u hu, hkey]
      rfl
    obtain rfl := hsame (by rw [hkey]; rfl)
    obtain ⟨-, hentered⟩ := foldl_enter_of_keyed hkeys t' n n'
    exact ⟨congrArg Table.records hentered, fun _ => hentered⟩

/-! ## Agreement on a name -/

namespace Database

/-- The name has the same schema in both databases, and tables with the same records; with a primary
key they are the same tables. -/
structure AgreeOn (db db' : Database) (name : String) : Prop where
  schema : db'.catalog.lookup? name = db.catalog.lookup? name
  records : ∀ r, db.catalog.lookup? name = some r → db.store.SameRecords db'.store name
  keyed : ∀ r, db.catalog.lookup? name = some r → r.primaryKey.isSome = true →
    db'.store.table? name = db.store.table? name

namespace AgreeOn

variable {db db' db'' d d' : Database} {name : String} {request : Request} {n n' : Nat}

theorem of_table? (hschema : db'.catalog.lookup? name = db.catalog.lookup? name)
    (htable : ∀ r, db.catalog.lookup? name = some r →
      db'.store.table? name = db.store.table? name) : db.AgreeOn db' name where
  schema := hschema
  records r hr := congrArg (Option.map Table.records) (htable r hr)
  keyed r hr _ := htable r hr

theorem refl (db : Database) (name : String) : db.AgreeOn db name := of_table? rfl fun _ _ => rfl

theorem symm (h : db.AgreeOn db' name) : db'.AgreeOn db name where
  schema := h.schema.symm
  records r hr := (h.records r (h.schema ▸ hr)).symm
  keyed r hr hkey := (h.keyed r (h.schema ▸ hr) hkey).symm

theorem trans (h : db.AgreeOn db' name) (h' : db'.AgreeOn db'' name) : db.AgreeOn db'' name where
  schema := h'.schema.trans h.schema
  records r hr := (h'.records r (h.schema ▸ hr)).trans (h.records r hr)
  keyed r hr hkey := (h'.keyed r (h.schema ▸ hr) hkey).trans (h.keyed r hr hkey)

theorem withLayout (db : Database) (l : Store.Layout) (name : String) :
    db.AgreeOn (db.withLayout l) name := of_table? rfl fun _ _ => table?_withLayout db l name

/-- A change agrees with what was before on all names but its own. -/
theorem other (hchanges : db.Changes request db') (hother : request.target? ≠ some name)
    (hstep : db.InStep) : db.AgreeOn db' name :=
  of_table? (hchanges.lookup?_other hother) fun _ hr =>
    hchanges.table?_other hother (hstep.ne_metadata hr)

/-- The same tuples are entered alike into the tables of databases that agree on their relation. -/
theorem foldl_enter {r : Schema} (h : db.AgreeOn db' r.name) (hn : db.Numbered n)
    (hn' : db'.Numbered n') (hr : db.catalog.lookup? r.name = some r) {t t' : Table}
    (ht : db.store.table? r.name = some t) (ht' : db'.store.table? r.name = some t')
    {rows : List (List Datum)} {tuples : List Tuple}
    (htuples : rows.mapM (Tuple.ofValues r) = .ok tuples)
    (hbound : n + (Request.insert r.name rows).numbers db.catalog < 2 ^ 64)
    (hbound' : n' + (Request.insert r.name rows).numbers db.catalog < 2 ^ 64) :
    (tuples.foldl enter (t', db'.store.nextId)).1.records
        = (tuples.foldl enter (t, db.store.nextId)).1.records
      ∧ (r.primaryKey.isSome = true → (tuples.foldl enter (t', db'.store.nextId)).1
        = (tuples.foldl enter (t, db.store.nextId)).1) := by
  have hlength := (forall₂_of_mapM_eq_ok htuples).length_eq
  have hrecords : t'.records = t.records := by
    have hsame := h.records r hr
    rw [Store.SameRecords, ht, ht'] at hsame
    exact Option.some.inj hsame
  have hsame : r.primaryKey.isSome = true → t' = t := fun hkey => by
    have hsame := h.keyed r hr hkey
    rw [ht, ht'] at hsame
    exact Option.some.inj hsame
  rw [Request.numbers_insert hr] at hbound hbound'
  refine foldl_enter_alike db.store.nextId db'.store.nextId
    (fun u hu => (Tuple.exists_of_mem_ofValues htuples hu).2) hrecords hsame (fun hkey => ?_)
    fun hkey => ?_
  · rw [hkey, hlength] at hbound
    exact hn.next.symm ▸ ⟨hn.below _ _ _ hr hkey ht, hbound⟩
  · rw [hkey, hlength] at hbound'
    exact hn'.next.symm ▸ ⟨hn'.below _ _ _ (h.schema.trans hr) hkey ht', hbound'⟩

/-- The same change of databases that agree on its name leaves databases that do. -/
theorem changes (h : db.AgreeOn db' name) (hn : db.Numbered n) (hn' : db'.Numbered n')
    (hchanges : db.Changes request d) (hchanges' : db'.Changes request d')
    (htarget : request.target? = some name) (hbound : n + request.numbers db.catalog < 2 ^ 64)
    (hbound' : n' + request.numbers db.catalog < 2 ^ 64) : d.AgreeOn d' name := by
  cases hchanges with
  | @created _ _ _ s store _ hdef _ _ _ _ htables =>
    cases hchanges' with
    | @created _ _ _ s' store' _ hdef' _ _ _ _ htables' =>
      cases hdef.symm.trans hdef'
      obtain ⟨rfl, -⟩ := Schema.eq_of_define hdef
      cases htarget
      refine of_table? ?_ fun _ _ => ?_
      · exact (Catalog.lookup?_insert ..).trans
          ((if_pos rfl).trans ((Catalog.lookup?_insert ..).trans (if_pos rfl)).symm)
      · exact (htables' s.name).trans
          ((if_pos rfl).trans ((htables s.name).trans (if_pos rfl)).symm)
  | dropped =>
    cases hchanges' with
    | dropped =>
      cases htarget
      have hgone : ∀ c : Catalog, (c.erase name).lookup? name = none := fun c =>
        (Catalog.lookup?_erase ..).trans (if_pos rfl)
      refine of_table? ((hgone _).trans (hgone _).symm) fun r hr => ?_
      cases (hgone _).symm.trans hr
  | @inserted _ rows r tuples store t t₁ hr htuples ht hnew hstore =>
    cases hchanges' with
    | @inserted _ _ r' tuples' store' t' t₁' hr' htuples' ht' hnew' hstore' =>
      cases htarget
      cases (h.schema.symm.trans hr').symm.trans hr
      cases htuples.symm.trans htuples'
      obtain rfl := Catalog.name_of_lookup? hr
      have hentered := h.foldl_enter hn hn' hr ht ht' htuples hbound hbound'
      rw [hnew, hnew'] at hentered
      have hthere : store.table? r.name = some t₁ := by rw [hstore.table?, if_pos rfl]
      have hthere' : store'.table? r.name = some t₁' := by rw [hstore'.table?, if_pos rfl]
      refine ⟨h.schema, fun q hq => ?_, fun q hq hkey => ?_⟩
      · show (store'.table? r.name).map Table.records = (store.table? r.name).map Table.records
        rw [hthere, hthere']
        exact congrArg some hentered.1
      · cases hr.symm.trans hq
        exact hthere'.trans ((congrArg some (hentered.2 hkey)).trans hthere.symm)

end AgreeOn

/-- The settings are the same, and the databases agree on every name. -/
structure Alike (db db' : Database) : Prop where
  config : db'.config = db.config
  agree : ∀ name, db.AgreeOn db' name

namespace Alike

variable {db db' : Database}

theorem refl (db : Database) : db.Alike db := ⟨rfl, .refl db⟩

theorem catalog (h : db.Alike db') : db'.catalog = db.catalog :=
  Catalog.ext_lookup? fun name => (h.agree name).schema

theorem sameRecords (h : db.Alike db') {r : Schema} (hr : db.catalog.lookup? r.name = some r)
    (l : Store.Layout) : db.store.SameRecords (db'.withLayout l).store r.name := by
  rw [Store.SameRecords, table?_withLayout]
  exact (h.agree r.name).records r hr

/-- A query has the same plan in alike databases. -/
theorem planOf_eq (h : db.Alike db') (q : Query) : Binding.planOf db' q = Binding.planOf db q :=
  Binding.planOf_congr q h.catalog fun r hr =>
    JoinTree.strategyFor_congr h.config ((h.agree r.name).records r hr)

end Alike

end Database

namespace Session

open Database (Alike)

variable {db db' : Database} {request r : Request} {statement : Statement} {name : String}
  {n n' : Nat} {fits : Request → Prop} {j j' : Journal}

/-! ## One request to change something -/

/-- A change answers the same in databases that agree on its name. -/
theorem executeRequest_agree (h : db.AgreeOn db' name) (hstep : db.InStep) (hstep' : db'.InStep)
    (htarget : request.target? = some name) :
    (executeRequest request).result db' j' = (executeRequest request).result db j := by
  cases request with
  | createTable =>
    cases htarget
    rw [hstep.result_createTable, hstep'.result_createTable]
    refine congrArg _ (bind_congr_of_ok fun s hdef => Catalog.checkCreate_congr ?_)
    rw [(Schema.eq_of_define hdef).1]
    exact h.schema
  | dropTable =>
    cases htarget
    rw [hstep.result_dropTable, hstep'.result_dropTable, Catalog.checkDrop_congr h.schema]
  | insert =>
    cases htarget
    rw [hstep.result_insert, hstep'.result_insert, Catalog.lookup_congr h.schema]
  | select | explain | showTables => cases htarget

/-! ## Requests that read -/

theorem query_gives_of_inStep (hstep : db.InStep) (q : Query) :
    (Binding.query db q).Gives (Binding.planOf db q) := by
  refine Binding.query_gives q fun r hr => ?_
  obtain ⟨id, hid⟩ := hstep.exists_tableId hr
  exact ⟨_, Store.contents_eq_ok_iff_openTable.2 ⟨id, Store.openTable_eq_ok_iff.2 hid, rfl⟩⟩

/-- Queries see schemas and records. -/
theorem executeRequest_select_alike (h : db.Alike db') (hstep : db.InStep) (hstep' : db'.InStep)
    (q : Query) : (executeRequest (.select q)).result db' j'
      = (executeRequest (.select q)).result db j := by
  have hplan : (Binding.request db (.select q)).Gives (Binding.planOf db q) :=
    query_gives_of_inStep hstep q
  have hplan' : (Binding.request db' (.select q)).Gives (Binding.planOf db q) :=
    h.planOf_eq q ▸ query_gives_of_inStep hstep' q
  cases hp : Binding.planOf db q with
  | error e =>
    rw [hp] at hplan hplan'
    rw [result_of_no_plan hplan, result_of_no_plan hplan']
  | ok p =>
    rw [hp] at hplan hplan'
    obtain ⟨outs, input, rs, rfl, -, hscans, -, -, -, hlookup, -⟩ := Binding.planOf_eq_ok hp
    have hquery : ∀ {db'}, db.Alike db' → ∀ l i,
        (Execution.run (.project outs input)).result (db'.withLayout l) i
          = (Execution.query db.store (.project outs input) db.store.layout).1 := by
      intro db' h l i
      have hrecords : ∀ r ∈ (Plan.project outs input).scans,
          db.store.SameRecords (db'.withLayout l).store r.name :=
        fun r hr => h.sameRecords (hlookup r (hscans.subset hr)) l
      exact Execution.query_alike hrecords _ l
    rw [result_of_plan hplan (hquery (.refl db)), result_of_plan hplan' (hquery h)]

theorem executeRequest_explain_alike (h : db.Alike db') (hstep : db.InStep)
    (hstep' : db'.InStep) (q : Query) : (executeRequest (.explain q)).result db' j'
      = (executeRequest (.explain q)).result db j := by
  have hgives : ∀ {db : Database}, db.InStep → (Binding.request db (.explain q)).Gives
      (Binding.planOf db q >>= fun p => .ok (.explain p.text)) := fun hstep =>
    (query_gives_of_inStep hstep q).andThen fun p _ => Reading.Gives.pure (Plan.explain p.text)
  have hplan := hgives hstep
  have hplan' := hgives hstep'
  rw [h.planOf_eq] at hplan'
  cases hp : Binding.planOf db q with
  | error e =>
    rw [hp] at hplan hplan'
    exact (result_of_no_plan hplan').trans (result_of_no_plan hplan).symm
  | ok p =>
    have hshown : ∀ (db : Database) l i, (Execution.run (.explain p.text)).result
        (db.withLayout l) i = .ok (Execution.explanation p.text) := fun _ _ _ => rfl
    rw [hp] at hplan hplan'
    exact (result_of_plan hplan' (hshown db')).trans (result_of_plan hplan (hshown db)).symm

theorem executeRequest_showTables_alike (h : db.Alike db') :
    (executeRequest .showTables).result db' j' = (executeRequest .showTables).result db j := by
  have hplan : ∀ db, (Binding.request db .showTables).Gives (.ok .showTables) := fun _ =>
    Reading.Gives.pure _
  have hnames : ∀ (db : Database) l i, (Execution.run .showTables).result (db.withLayout l) i
      = .ok (.ofStrings "relation" db.catalog.names) := fun _ _ _ => rfl
  rw [result_of_plan (hplan db) (hnames db), result_of_plan (hplan db') (hnames db'), h.catalog]

namespace Statement

theorem result_agree (h : db.AgreeOn db' name) (hstep : db.InStep) (hstep' : db'.InStep)
    (hr : statement.request? = .ok r) (htarget : r.target? = some name) (j j' : Journal) :
    statement.run.result db' j' = statement.run.result db j := by
  obtain ⟨k, hrun, -⟩ := run_of_ok hr db j
  obtain ⟨k', hrun', -⟩ := run_of_ok hr db' j'
  rw [hrun, hrun']
  exact executeRequest_agree h hstep hstep' htarget

theorem numbers_agree (h : db.AgreeOn db' name) (hstep : db.InStep) (hstep' : db'.InStep)
    (hr : statement.request? = .ok r) (htarget : r.target? = some name) (j j' : Journal) :
    statement.numbers db' j' = statement.numbers db j := by
  have hnumbers : r.numbers db'.catalog = r.numbers db.catalog := by
    cases r with
    | insert =>
      cases htarget
      rw [Request.numbers, Request.numbers, h.schema]
    | createTable | dropTable | select | explain | showTables => rfl
  rw [numbers, numbers, result_agree h hstep hstep' hr htarget j j', hr]
  cases statement.run.result db j with
  | error e => rfl
  | ok result => exact hnumbers

/-- A statement has no part in names other than its own. -/
theorem agreeOn_other (hstep : db.InStep)
    (hother : ∀ r, statement.request? = .ok r → r.target? ≠ some name) :
    db.AgreeOn (statement.run.after db j) name := by
  rcases statement.after_cases hstep j with ⟨⟨l, hl⟩, -⟩ | ⟨r, l, result, hr, -, hchanges⟩
  · rw [hl]
    exact .withLayout db l name
  · exact (Database.AgreeOn.withLayout db l name).trans
      (.other hchanges (hother r hr) (hstep.withLayout l))

/-- Databases that agree on its name agree on it afterwards. -/
theorem agreeOn_target (h : db.AgreeOn db' name) (hdb : Attained fits n db)
    (hdb' : Attained fits n' db') (hr : statement.request? = .ok r)
    (htarget : r.target? = some name) {j : Journal} (hbound : n + statement.numbers db j < 2 ^ 64)
    (hbound' : n' + statement.numbers db j < 2 ^ 64) (j' : Journal) :
    (statement.run.after db j).AgreeOn (statement.run.after db' j') name := by
  have hresult := result_agree h hdb.inStep hdb'.inStep hr htarget j j'
  cases hok : statement.run.result db j with
  | error e =>
    rw [hok] at hresult
    obtain ⟨l, hl⟩ := after_of_error hdb.inStep hok
    obtain ⟨l', hl'⟩ := after_of_error hdb'.inStep hresult
    rw [hl, hl']
    exact (Database.AgreeOn.withLayout db l name).symm.trans (h.trans (.withLayout db' l' name))
  | ok result =>
    have hread : r.isRead = false := by
      cases r with
      | createTable | dropTable | insert => rfl
      | select | explain | showTables => cases htarget
    rw [hok] at hresult
    rw [numbers_of_ok hr hok] at hbound hbound'
    obtain ⟨l, hchanges⟩ := after_of_ok hdb.inStep hr hread hok
    obtain ⟨l', hchanges'⟩ := after_of_ok hdb'.inStep hr hread hresult
    have hagree := (Database.AgreeOn.withLayout db l name).symm.trans
      (h.trans (.withLayout db' l' name))
    exact hagree.changes ((hdb.numbered (by omega)).withLayout l)
      ((hdb'.numbered (by omega)).withLayout l') hchanges hchanges' htarget hbound hbound'

/-! ## All statements -/

/-- Alike databases answer alike. -/
theorem result_alike (statement : Statement) (h : db.Alike db') (hstep : db.InStep)
    (hstep' : db'.InStep) (j j' : Journal) :
    statement.run.result db' j' = statement.run.result db j := by
  cases hr : statement.request? with
  | error e => rw [(run_of_error hr db j).1, (run_of_error hr db' j').1]
  | ok r =>
    cases htarget : r.target? with
    | some name => exact result_agree (h.agree name) hstep hstep' hr htarget j j'
    | none =>
      obtain ⟨k, hrun, -⟩ := run_of_ok hr db j
      obtain ⟨k', hrun', -⟩ := run_of_ok hr db' j'
      rw [hrun, hrun']
      cases r with
      | createTable | dropTable | insert => cases htarget
      | select q => exact executeRequest_select_alike h hstep hstep' q
      | explain q => exact executeRequest_explain_alike h hstep hstep' q
      | showTables => exact executeRequest_showTables_alike h

theorem numbers_alike (statement : Statement) (h : db.Alike db') (hstep : db.InStep)
    (hstep' : db'.InStep) (j j' : Journal) :
    statement.numbers db' j' = statement.numbers db j := by
  rw [numbers, numbers, statement.result_alike h hstep hstep' j j', h.catalog]

theorem config_after (hstep : db.InStep) : (statement.run.after db j).config = db.config := by
  rcases statement.after_cases hstep j with ⟨⟨l, hl⟩, -⟩ | ⟨r, l, result, -, -, hchanges⟩
  · rw [hl]
    rfl
  · exact hchanges.config

/-- They are alike afterwards. -/
theorem alike_after (h : db.Alike db') (hdb : Attained fits n db) (hdb' : Attained fits n' db')
    (hbound : n + statement.numbers db j < 2 ^ 64)
    (hbound' : n' + statement.numbers db j < 2 ^ 64) :
    (statement.run.after db j).Alike (statement.run.after db' j') where
  config := by rw [config_after hdb.inStep, config_after hdb'.inStep, h.config]
  agree name := by
    by_cases htarget : ∃ r, statement.request? = .ok r ∧ r.target? = some name
    · obtain ⟨r, hr, htarget⟩ := htarget
      exact agreeOn_target (h.agree name) hdb hdb' hr htarget hbound hbound' j'
    · have hother : ∀ r, statement.request? = .ok r → r.target? ≠ some name :=
        fun r hr hname => htarget ⟨r, hr, hname⟩
      exact (agreeOn_other hdb.inStep hother).symm.trans
        ((h.agree name).trans (agreeOn_other hdb'.inStep hother))

end Statement

/-! ## Sequences of statements -/

/-- What statements answer that run one after the other. -/
def answers : List Statement → Database → Journal → List (Except Error Result)
  | [], _, _ => []
  | s :: ss, db, j => s.run.result db j :: answers ss (s.run.after db j) (s.run.journal db j)

/-- How many numbers they take. -/
def numbersTaken : List Statement → Database → Journal → Nat
  | [], _, _ => 0
  | s :: ss, db, j => s.numbers db j + numbersTaken ss (s.run.after db j) (s.run.journal db j)

/-- Alike databases answer all further statements alike, as long as numbers do not run out. -/
theorem answers_alike {statements : List Statement} (h : db.Alike db')
    (hdb : Attained (fun _ => True) n db) (hdb' : Attained (fun _ => True) n db')
    (hbound : n + numbersTaken statements db j < 2 ^ 64) :
    answers statements db' j' = answers statements db j := by
  induction statements generalizing db db' n j j' with
  | nil => rfl
  | cons s ss ih =>
    rw [numbersTaken, ← Nat.add_assoc] at hbound
    have hnumbers := s.numbers_alike h hdb.inStep hdb'.inStep j j'
    have hafter : n + s.numbers db j < 2 ^ 64 := by omega
    have hnext := hdb.executed s j fun _ _ _ => trivial
    have hnext' := hdb'.executed s j' fun _ _ _ => trivial
    rw [hnumbers] at hnext'
    rw [answers, answers, s.result_alike h hdb.inStep hdb'.inStep j j',
      ih (Statement.alike_after h hdb hdb' hafter hafter) hnext hnext' hbound]

end Session

end RelQuery
