/-
  What running a statement does to a database.

  A statement is bound to a plan, which only reads, and the plan is carried out. Plans that create,
  drop or insert come from the requests to do so; all other plans read.

  Main statements: where the plan of a change comes from (`request_eq_ok`), and that a statement
  leaves what its plan leaves (`executeRequest_of_ok`, `executeRequest_of_error`).
-/
import RelQuery.Session
import RelQuery.Proofs.Reading

namespace RelQuery

open Log (Journal report)

/-! ## Plans of requests -/

/-- Whether a request asks only for an answer. -/
def Request.isRead : Request → Bool
  | .select _ | .explain _ | .showTables => true
  | .createTable .. | .dropTable _ | .insert .. => false

/-- The relation that a request creates, drops or fills. -/
def Request.target? : Request → Option String
  | .createTable name .. | .dropTable name | .insert name _ => some name
  | .select _ | .explain _ | .showTables => none

/-- How many numbers a request takes: one for each row that it inserts into a relation without a
primary key. -/
def Request.numbers (c : Catalog) : Request → Nat
  | .insert name rows => if (c.lookup? name).any (·.primaryKey.isNone) then rows.length else 0
  | .createTable .. | .dropTable _ | .select _ | .explain _ | .showTables => 0

namespace Binding

/-- The plan comes from this request, with names and values checked. -/
inductive PlanOf (catalog : Catalog) : Request → Plan → Prop
  | create {name : String} {attributes : List Attribute} {primaryKey : Option Nat} {s : Schema}
    (h : Schema.define name attributes primaryKey = .ok s) :
    PlanOf catalog (.createTable name attributes primaryKey) (.create s)
  | drop (name : String) : PlanOf catalog (.dropTable name) (.drop name)
  | insert {name : String} {rows : List (List Datum)} {r : Schema} {tuples : List Tuple}
    (hr : catalog.lookup name = .ok r) (h : rows.mapM (Tuple.ofValues r) = .ok tuples) :
    PlanOf catalog (.insert name rows) (.insert r tuples)
  | select (q : Query) (outputs : List Term) (input : Plan) :
    PlanOf catalog (.select q) (.project outputs input)
  | showTables : PlanOf catalog .showTables .showTables
  | explain (q : Query) (text : String) : PlanOf catalog (.explain q) (.explain text)

theorem PlanOf.isQuery_eq {catalog : Catalog} {request : Request} {plan : Plan}
    (h : PlanOf catalog request plan) : plan.isQuery = request.isRead := by
  cases h <;> rfl

theorem query_eq_ok {db : Database} {q : Query} {l : Store.Layout} {j : Journal} {plan : Plan}
    (h : (query db q).result l j = .ok plan) : ∃ outputs input, plan = .project outputs input := by
  unfold query at h
  obtain ⟨rs, _, _, -, h⟩ := Reading.exists_of_bind h
  obtain ⟨ps, _, _, -, h⟩ := Reading.exists_of_bind h
  obtain ⟨outs, _, _, -, h⟩ := Reading.exists_of_bind h
  dsimp only at h
  split at h
  · obtain ⟨_, _, _, hfail, -⟩ := Reading.exists_of_bind h
    cases hfail
  · split at h
    · obtain ⟨_, _, _, hfail, -⟩ := Reading.exists_of_bind h
      cases hfail
    · obtain ⟨input, _, _, -, h⟩ := Reading.exists_of_bind h
      cases h
      exact ⟨outs, input, rfl⟩

theorem request_eq_ok {db : Database} {request : Request} {l : Store.Layout} {j : Journal}
    {plan : Plan} (h : (Binding.request db request).result l j = .ok plan) :
    PlanOf db.catalog request plan := by
  cases request with
  | createTable name attributes primaryKey =>
    obtain ⟨s, _, _, hs, h⟩ := Reading.exists_of_bind h
    cases h
    exact .create ((Reading.result_ofExcept _ _ _).symm.trans hs)
  | dropTable name =>
    cases h
    exact .drop name
  | insert name rows =>
    obtain ⟨r, _, _, hr, h⟩ := Reading.exists_of_bind h
    obtain ⟨tuples, _, _, ht, h⟩ := Reading.exists_of_bind h
    cases h
    exact .insert ((Reading.result_ofExcept _ _ _).symm.trans hr)
      ((Reading.result_ofExcept _ _ _).symm.trans ht)
  | select q =>
    obtain ⟨outputs, input, rfl⟩ := query_eq_ok h
    exact .select q outputs input
  | showTables =>
    cases h
    exact .showTables
  | explain q =>
    obtain ⟨p, _, _, -, h⟩ := Reading.exists_of_bind h
    cases h
    exact .explain q p.text

end Binding

/-! ## Running requests -/

namespace Session

theorem plan_eq_ok {request : Request} {db : Database} {l : Store.Layout} {j : Journal}
    {plan : Plan} (h : (Session.plan request db).result l j = .ok plan) :
    Binding.PlanOf db.catalog request plan := by
  unfold Session.plan at h
  obtain ⟨p, _, _, hp, h⟩ := Reading.exists_of_bind h
  have hp := Binding.request_eq_ok hp
  dsimp only at h
  split at h
  · obtain ⟨_, _, _, -, h⟩ := Reading.exists_of_bind h
    cases h
    exact hp
  · cases h
    exact hp

/-- What is done with a plan. -/
def carryOut (p : Plan) : Action Result := do
  let outcome ← Execution.run p
  return ⟨outcome, p.isQuery⟩

theorem executeRequest_eq (request : Request) :
    executeRequest request = Action.reading (plan request) >>= carryOut := rfl

theorem carryOut_eq (p : Plan) (db : Database) (j : Journal) :
    (carryOut p).result db j = ((Execution.run p).result db j).map (⟨·, p.isQuery⟩)
      ∧ (carryOut p).after db j = (Execution.run p).after db j := by
  unfold carryOut
  cases hrun : (Execution.run p).result db j with
  | error e => exact Action.bind_of_error hrun
  | ok outcome => exact Action.bind_of_ok hrun

variable {request : Request} {db : Database} {j : Journal}

/-- A request whose plan fails leaves the database but for the layout. -/
theorem executeRequest_of_error {e : Error}
    (h : (plan request db).result db.store.layout j = .error e) :
    (executeRequest request).result db j = .error e
      ∧ ∃ l, (executeRequest request).after db j = db.withLayout l := by
  rw [executeRequest_eq]
  have hplan : (Action.reading (plan request)).result db j = .error e := h
  obtain ⟨hresult, hafter⟩ := Action.bind_of_error (f := carryOut) hplan
  obtain ⟨l, hl⟩ := Action.after_reading (plan request) db j
  exact ⟨hresult, l, hafter.trans hl⟩

/-- A request with a plan does what the plan does. -/
theorem executeRequest_of_ok {p : Plan}
    (h : (plan request db).result db.store.layout j = .ok p) :
    ∃ l k, (executeRequest request).result db j
        = ((Execution.run p).result (db.withLayout l) k).map (⟨·, p.isQuery⟩)
      ∧ (executeRequest request).after db j = (Execution.run p).after (db.withLayout l) k := by
  rw [executeRequest_eq]
  have hplan : (Action.reading (plan request)).result db j = .ok p := h
  obtain ⟨hresult, hafter⟩ := Action.bind_of_ok (f := carryOut) hplan
  obtain ⟨l, hl⟩ := Action.after_reading (plan request) db j
  rw [hl] at hresult hafter
  obtain ⟨hcarry, hcarry'⟩ := carryOut_eq p (db.withLayout l)
    ((Action.reading (plan request)).journal db j)
  exact ⟨l, _, hresult.trans hcarry, hafter.trans hcarry'⟩

/-- Reporting a plan has no part in what it is. -/
theorem plan_gives {x : Except Error Plan} (h : (Binding.request db request).Gives x) :
    (plan request db).Gives x := by
  unfold plan
  cases x with
  | error e => exact h.bind_error
  | ok p =>
    refine h.bind ?_
    dsimp only
    split
    · exact (Reading.Gives.report _ _).bind (Reading.Gives.pure _)
    · exact Reading.Gives.pure _

theorem result_of_no_plan {e : Error} (h : (Binding.request db request).Gives (.error e)) :
    (executeRequest request).result db j = .error e :=
  (executeRequest_of_error (plan_gives h db.store.layout j)).1

/-- What the plan answers on every layout, the request answers. -/
theorem result_of_plan {p : Plan} {outcome : Except Error Outcome}
    (h : (Binding.request db request).Gives (.ok p))
    (hrun : ∀ l k, (Execution.run p).result (db.withLayout l) k = outcome) :
    (executeRequest request).result db j = outcome.map (⟨·, p.isQuery⟩) := by
  obtain ⟨l, k, hresult, -⟩ := executeRequest_of_ok (plan_gives h db.store.layout j)
  rw [hresult, hrun]

end Session

/-! ## Running plans -/

namespace Execution

variable {db : Database} {j : Journal}

/-- A plan that is no change leaves the database but for the layout. -/
theorem after_run_of_isQuery {p : Plan} (h : p.isQuery = true) :
    ∃ l, (run p).after db j = db.withLayout l := by
  cases p with
  | scan | join | project => exact Action.after_reading _ db j
  | showTables | explain => exact ⟨db.store.layout, rfl⟩
  | create | drop | insert => cases h

theorem run_create_of_error {s : Schema} {e : Error} (h : db.catalog.checkCreate s = .error e) :
    (run (.create s)).run db j = ((.error e, db), j) := by
  rw [run, Database.createRelation, bind_assoc, Action.run_get, h]
  rfl

/-- Changes of the store that all succeed. -/
theorem run_change {changes : List Store.Change} {store : Store}
    (h : db.store.applyAll changes = (store, .ok ())) :
    (Database.change changes).run db j = ((.ok (), { db with store }), j) := by
  rw [Database.change, Action.run_get, h]
  rfl

theorem run_create_of_ok {s : Schema} {store : Store} (h : db.catalog.checkCreate s = .ok ())
    (hs : db.store.applyAll (Catalog.creation s) = (store, .ok ())) :
    ∃ k, (run (.create s)).run db j
      = ((.ok .done, { db with store, catalog := db.catalog.insert s }), k) := by
  refine ⟨j ++ [⟨.info, "Created relation " ++ s.name⟩], ?_⟩
  rw [run, Database.createRelation, bind_assoc, Action.run_get, h]
  show ((Database.change (Catalog.creation s) >>= _) >>= _ : Action Outcome).run db j = _
  rw [bind_assoc, Action.run_bind, Action.result, Action.after, Action.journal, run_change hs]
  rfl

theorem run_drop_of_error {name : String} {e : Error} (h : db.catalog.checkDrop name = .error e) :
    (run (.drop name)).run db j = ((.error e, db), j) := by
  rw [run, Database.dropRelation, bind_assoc, Action.run_get, h]
  rfl

theorem run_drop_of_ok {name : String} {store : Store} (h : db.catalog.checkDrop name = .ok ())
    (hs : db.store.applyAll (Catalog.removal name) = (store, .ok ())) :
    ∃ k, (run (.drop name)).run db j
      = ((.ok .done, { db with store, catalog := db.catalog.erase name }), k) := by
  refine ⟨j ++ [⟨.info, "Dropped relation " ++ name⟩], ?_⟩
  rw [run, Database.dropRelation, bind_assoc, Action.run_get, h]
  show ((Database.change (Catalog.removal name) >>= _) >>= _ : Action Outcome).run db j = _
  rw [bind_assoc, Action.run_bind, Action.result, Action.after, Action.journal, run_change hs]
  rfl

theorem run_insert_of_ok {r : Schema} {id : TableId} (h : db.store.openTable r.name = .ok id)
    (tuples : List Tuple) :
    ∃ k, (run (.insert r tuples)).run db j
      = ((.ok ⟨[], [], tuples.length⟩,
        { db with store := tuples.foldl (insertTuple id) db.store }), k) := by
  refine ⟨j ++ [⟨.debug, "Inserted " ++ toString tuples.length ++ " row(s) into " ++ r.name⟩], ?_⟩
  rw [run, insert, bind_assoc, Action.run_get, h]
  rfl

end Execution

/-! ## Statements and states -/

namespace Session

/-- What a session is asked to do. -/
inductive Statement where
  | text (sql : String)
  | request (request : Request)

namespace Statement

/-- The request of a statement; a text may make none. -/
def request? : Statement → Except Error Request
  | text sql => Sql.readRequest sql
  | request r => .ok r

/-- Running a statement. -/
def run : Statement → Action Result
  | text sql => execute sql
  | request r => executeRequest r

/-- A statement that makes no request changes nothing. -/
theorem run_of_error {statement : Statement} {e : Error} (h : statement.request? = .error e)
    (db : Database) (j : Journal) :
    (statement.run.result db j) = .error e ∧ statement.run.after db j = db := by
  cases statement with
  | request r => cases h
  | text sql =>
    have hread : Sql.readRequest sql = .error e := h
    have hrun : (execute sql).run db j
        = ((.error e, db), j ++ [⟨.info, "Executing SQL: " ++ sql⟩]) := by
      rw [execute, hread]
      rfl
    exact ⟨congrArg (·.1.1) hrun, congrArg (·.1.2) hrun⟩

/-- A statement that makes a request runs it. -/
theorem run_of_ok {statement : Statement} {r : Request} (h : statement.request? = .ok r)
    (db : Database) (j : Journal) :
    ∃ k, statement.run.result db j = (executeRequest r).result db k
      ∧ statement.run.after db j = (executeRequest r).after db k := by
  cases statement with
  | request r' =>
    cases h
    exact ⟨j, rfl, rfl⟩
  | text sql =>
    have hread : Sql.readRequest sql = .ok r := h
    have hrun : (execute sql).run db j
        = (executeRequest r).run db (j ++ [⟨.info, "Executing SQL: " ++ sql⟩]) := by
      rw [execute, hread]
      rfl
    exact ⟨_, congrArg (·.1.1) hrun, congrArg (·.1.2) hrun⟩

/-- A statement whose request has no plan fails. -/
theorem run_of_no_plan {statement : Statement} {r : Request} (hr : statement.request? = .ok r)
    {db : Database} {e : Error} (hplan : (Binding.request db r).Gives (.error e)) (j : Journal) :
    statement.run.result db j = .error e := by
  obtain ⟨k, hresult, -⟩ := run_of_ok hr db j
  rw [hresult, result_of_no_plan hplan]

/-- What the plan of its request answers on every layout, a statement answers. -/
theorem run_of_plan {statement : Statement} {r : Request} (hr : statement.request? = .ok r)
    {db : Database} {p : Plan} {outcome : Except Error Outcome}
    (hplan : (Binding.request db r).Gives (.ok p))
    (hrun : ∀ l k, (Execution.run p).result (db.withLayout l) k = outcome) (j : Journal) :
    statement.run.result db j = outcome.map (⟨·, p.isQuery⟩) := by
  obtain ⟨k, hresult, -⟩ := run_of_ok hr db j
  rw [hresult, result_of_plan hplan hrun]

end Statement

/-- The databases in memory that statements lead to, from an empty one. What succeeds has to be a
fitting request, and the settings of joins may change. -/
inductive Reachable (fits : Request → Prop) : Database → Prop
  | created {config : Config} {db : Database} {j : Journal} (hdir : config.dataDir = none)
    (h : ((Database.create config).run j).1 = .ok db) : Reachable fits db
  | configured {db : Database} (h : Reachable fits db) (hashJoin : Bool) (maxBuildRows : Nat) :
    Reachable fits { db with config := { db.config with hashJoin, maxBuildRows } }
  | executed {db : Database} (h : Reachable fits db) (statement : Statement) (j : Journal)
    (hfits : ∀ r, statement.request? = .ok r →
      (∃ result, statement.run.result db j = .ok result) → fits r) :
    Reachable fits (statement.run.after db j)

theorem Reachable.mono {fits fits' : Request → Prop} {db : Database} (h : Reachable fits db)
    (hfits : ∀ r, fits r → fits' r) : Reachable fits' db := by
  induction h with
  | created hdir h => exact .created hdir h
  | configured _ hashJoin maxBuildRows ih => exact ih.configured hashJoin maxBuildRows
  | executed _ statement j hfit ih =>
    exact ih.executed statement j fun r hr hok => hfits r (hfit r hr hok)

/-- How many numbers a statement takes: if it succeeds, as many as its request. -/
def Statement.numbers (statement : Statement) (db : Database) (j : Journal) : Nat :=
  match statement.request?, statement.run.result db j with
  | .ok r, .ok _ => r.numbers db.catalog
  | _, _ => 0

/-- The databases, in memory or on disk, that statements lead to, and how many numbers they took
on the way. -/
inductive Attained (fits : Request → Prop) : Nat → Database → Prop
  | created {config : Config} {db : Database} {j : Journal}
    (h : ((Database.create config).run j).1 = .ok db) : Attained fits 0 db
  | configured {n : Nat} {db : Database} (h : Attained fits n db) (hashJoin : Bool)
    (maxBuildRows : Nat) :
    Attained fits n { db with config := { db.config with hashJoin, maxBuildRows } }
  | executed {n : Nat} {db : Database} (h : Attained fits n db) (statement : Statement)
    (j : Journal) (hfits : ∀ r, statement.request? = .ok r →
      (∃ result, statement.run.result db j = .ok result) → fits r) :
    Attained fits (n + statement.numbers db j) (statement.run.after db j)

theorem Reachable.exists_attained {fits : Request → Prop} {db : Database}
    (h : Reachable fits db) : ∃ n, Attained fits n db := by
  induction h with
  | created _ h => exact ⟨0, .created h⟩
  | configured _ hashJoin maxBuildRows ih =>
    exact ih.imp fun _ h => h.configured hashJoin maxBuildRows
  | executed _ statement j hfit ih =>
    obtain ⟨n, h⟩ := ih
    exact ⟨_, h.executed statement j hfit⟩

theorem Attained.mono {fits fits' : Request → Prop} {n : Nat} {db : Database}
    (h : Attained fits n db) (hfits : ∀ r, fits r → fits' r) : Attained fits' n db := by
  induction h with
  | created h => exact .created h
  | configured _ hashJoin maxBuildRows ih => exact ih.configured hashJoin maxBuildRows
  | executed _ statement j hfit ih =>
    exact ih.executed statement j fun r hr hok => hfits r (hfit r hr hok)

/-- A fitting request leads on, whether it succeeds or not. -/
theorem Reachable.requested {fits : Request → Prop} {db : Database} (h : Reachable fits db)
    {r : Request} (hr : fits r) (j : Journal) :
    Reachable fits ((Statement.request r).run.after db j) :=
  .executed h _ j fun r' hr' _ => by cases hr'; exact hr

theorem Attained.requested {fits : Request → Prop} {n k : Nat} {db : Database}
    (h : Attained fits n db) {r : Request} (hr : fits r) {j : Journal}
    (hk : (Statement.request r).numbers db j = k) :
    Attained fits (n + k) ((Statement.request r).run.after db j) :=
  hk ▸ h.executed _ j fun r' hr' _ => by cases hr'; exact hr

end Session

end RelQuery
