/-
  Queries are answered: in every state that statements lead to, running a query that can be bound
  succeeds, and its rows are those of the answer in some order.

  The plan of a query is read as a product of stored rows (`Plan.parts_rows`), whose tests and
  outputs are the comparisons and the select list of the query (`Binding.planOf_eq_ok`); in which
  order the tree joins the relations has a part only in the order of the rows
  (`filterMap_combinations_perm`).

  Main statement: `Session.Reachable.select_answers`.
-/
import RelQuery.Proofs.Operator.Drain
import RelQuery.Proofs.Query.Binding
import RelQuery.Proofs.Served

namespace RelQuery

/-! ## Carrying out the plan of a query -/

namespace Execution

open Operator (Served mapM_eq_ok)

/-- A projection of scans and joins gives its outputs' values on every row of the product. -/
theorem query_project {s : Store} {outs : List Term} {input : Plan} (hp : input.Joinable)
    (hs : Served s input) (houts : ∀ t ∈ outs, t.ReadsFrom input.scans) (l : Store.Layout) :
    (query s (.project outs input) l).1 = .ok ⟨outs.map Term.text,
      (input.product s).map fun ts => outs.filterMap (·.among ts), 0⟩ := by
  obtain ⟨op, hop, rfl, -⟩ := Operator.ofPlan_of_joinable hp
  obtain ⟨t, m, hacquire, ht, ha⟩ := Operator.acquire_of_joinable hp hs l
  have hplan : Operator.ofPlan (.project outs op.plan) = .ok (.project outs op) := by
    rw [Operator.ofPlan, hop]
    rfl
  have hvalues : ((op.source s).drain (Source.valuesOf outs) t m).1
      = .ok ((op.plan.rows s).map fun row => outs.filterMap (·.read row)) := by
    rw [(Operator.hands_of_joinable hp hs).drain _ m ht, ha]
    refine mapM_eq_ok fun row hrow => Source.valuesOf_eq_ok fun t ht => ?_
    exact Term.exists_value (houts t ht) (Plan.of_mem_rows hp hrow) hs.distinct
  have hread : (op.plan.rows s).map (fun row => outs.filterMap (·.read row))
      = (op.plan.product s).map fun ts => outs.filterMap (·.among ts) := by
    rw [← Plan.parts_rows hp hs.distinct, List.map_map]
    refine List.map_congr_left fun row hrow => List.filterMap_congr fun t _ => ?_
    exact Term.read_eq_among (Plan.of_mem_rows hp hrow) t
  unfold query
  rw [hplan]
  dsimp only
  rw [hacquire]
  dsimp only
  rw [hvalues, hread]
  rfl

end Execution

/-! ## The product of a query's plan -/

theorem map_filter_eq_filterMap {α β : Type} (p : α → Bool) (f : α → β) (as : List α) :
    (as.filter p).map f = as.filterMap fun a => if p a then some (f a) else none := by
  induction as with
  | nil => rfl
  | cons a as ih =>
    rw [List.filter_cons, List.filterMap_cons]
    cases p a with
    | true => simp [ih]
    | false => simpa using ih

namespace Plan

/-- The product of a tree that scans these relations in another order. -/
theorem product_perm {s : Store} {p : Plan} {rs : List Schema} {outs : List Term}
    (hscans : p.scans.Perm rs) (hn : (rs.map (·.name)).Nodup) :
    ((p.product s).map fun ts => outs.filterMap (·.among ts)).Perm
      (((combinations (rs.map s.tuples)).filter fun ts => p.tests.all (·.holdsAmong ts)).map
        fun ts => outs.filterMap (·.among ts)) := by
  rw [product, map_filter_eq_filterMap, map_filter_eq_filterMap]
  refine filterMap_combinations_perm hscans fun ts us hperm hts => ?_
  have hapart : Apart ts := by
    have hnames := ((hts.trans hscans).map (·.name)).symm.nodup hn
    rwa [List.map_map] at hnames
  have htests : p.tests.all (·.holdsAmong ts) = p.tests.all (·.holdsAmong us) :=
    all_eq_of_mem fun t _ => Predicate.holdsAmong_perm hperm hapart t
  have houts : outs.filterMap (·.among ts) = outs.filterMap (·.among us) :=
    List.filterMap_congr fun t _ => Term.among_perm hperm hapart t
  rw [htests, houts]

end Plan

/-- The product that the plan of a query stands for is the answer, in some order. -/
theorem Binding.product_perm_answer {db : Database} {q : Query} {outs : List Term} {input : Plan}
    (h : planOf db q = .ok (.project outs input)) :
    (((input.product db.store).map fun ts => outs.filterMap (·.among ts)).map some).Perm
      (q.answer db) := by
  obtain ⟨_, _, rs, hplan, -, hscans, -, hn, hnames, hlookup, hmeans⟩ := planOf_eq_ok h
  cases hplan
  refine ((Plan.product_perm hscans hn).map some).trans (.of_eq ?_)
  have hstored : q.relations.map db.stored = rs.map db.store.tuples := by
    rw [← hnames, List.map_map]
    refine List.map_congr_left fun r hr => ?_
    rw [Function.comp_apply, Database.stored, hlookup r hr]
  have hmeans : ∀ ts ∈ combinations (rs.map db.store.tuples),
      q.comparisons.all (·.holdsOn ts) = input.tests.all (·.holdsAmong ts)
        ∧ q.evaluate ts = some (outs.filterMap (·.among ts)) := by
    intro ts hts
    have hts := schemas_of_mem_combinations hts
    exact hmeans ts (apart_of_schemas hts hn) hts
  rw [Query.answer, hstored, List.map_map, List.filter_congr fun ts hts => (hmeans ts hts).1]
  refine List.map_congr_left fun ts hts => ?_
  exact (hmeans ts (List.mem_of_mem_filter hts)).2.symm

/-! ## All rows of a relation -/

/-- The plan for all rows of a relation scans it without a filter and shows all attributes. -/
theorem Binding.planOf_all {db : Database} {name : String} {r : Schema}
    (hr : db.catalog.lookup? name = some r) :
    planOf db (.all name)
      = .ok (.project ((Scope.mk [r]).expandAll.map Term.attr) (.scan r [])) := by
  have hrelations : relations db.catalog [] [name] = .ok [r] := by
    rw [relations, Catalog.lookup_eq_ok_iff.2 hr]
    rfl
  unfold planOf
  rw [Query.all, hrelations]
  rfl

/-- It stands for the stored rows in their order. -/
theorem Plan.product_all (s : Store) (r : Schema) :
    ((Plan.scan r []).product s).map
        (fun ts => ((Scope.mk [r]).expandAll.map Term.attr).filterMap (·.among ts))
      = (s.tuples r).map (·.values) := by
  have hproduct : (Plan.scan r []).product s = (s.tuples r).map ([·]) := by
    have hall : ∀ ts : List (List Tuple), ts.filter (fun ts => [].all
        (Predicate.holdsAmong ts)) = ts := fun ts => List.filter_eq_self.2 fun _ _ => rfl
    rw [product, scans, tests, hall]
    simp [combinations, List.map_eq_flatMap]
  rw [hproduct, List.map_map]
  refine List.map_congr_left fun t ht => ?_
  have hts : [t].map (·.schema) = (Scope.mk [r]).relations := by
    simp [Store.schema_of_mem_tuples ht]
  have hapart : Apart [t] := List.nodup_singleton _
  have hvalues := Binding.filterMap_expandAll hapart hts
  rwa [List.flatMap_singleton] at hvalues

/-! ## Running queries -/

namespace Session

variable {db : Database}

/-- Running a query gives what its plan gives. -/
theorem Statement.run_select_of_plan {statement : Statement} {q : Query}
    (hq : statement.request? = .ok (.select q)) {outs : List Term} {input : Plan}
    (hplan : (Binding.query db q).Gives (.ok (.project outs input)))
    {outcome : Except Error Outcome}
    (h : ∀ l, (Execution.query (db.withLayout l).store (.project outs input) l).1 = outcome)
    (j : Log.Journal) : statement.run.result db j = outcome.map (⟨·, true⟩) := by
  have hplan : (Binding.request db (.select q)).Gives (.ok (.project outs input)) := hplan
  have hquery : ∀ l i, (Execution.run (.project outs input)).result (db.withLayout l) i
      = outcome := fun l _ => h l
  exact Statement.run_of_plan hq hplan hquery j

/-- So it gives rows if the plan does. -/
theorem Statement.run_select_of_ok {statement : Statement} {q : Query}
    (hq : statement.request? = .ok (.select q)) {outs : List Term} {input : Plan}
    (hplan : (Binding.query db q).Gives (.ok (.project outs input))) {outcome : Outcome}
    (h : ∀ l, (Execution.query (db.withLayout l).store (.project outs input) l).1 = .ok outcome)
    (j : Log.Journal) : statement.run.result db j = .ok ⟨outcome, true⟩ :=
  run_select_of_plan hq hplan h j

/-- If all records can be read, the plan of a query gives the product that it stands for. -/
theorem query_of_planOf (hserved : db.Served) {q : Query} {outs : List Term} {input : Plan}
    (h : Binding.planOf db q = .ok (.project outs input)) (l : Store.Layout) :
    (Execution.query (db.withLayout l).store (.project outs input) l).1 = .ok ⟨outs.map Term.text,
      (input.product db.store).map fun ts => outs.filterMap (·.among ts), 0⟩ := by
  obtain ⟨_, _, rs, heq, hjoinable, hscans, houts, hn, -, hlookup, -⟩ := Binding.planOf_eq_ok h
  cases heq
  have hplan : Operator.Served (db.withLayout l).store input :=
    ⟨fun r hr => hserved _ _ (hlookup r (hscans.subset hr)),
      (hscans.map (·.name)).symm.nodup hn⟩
  exact Execution.query_project hjoinable hplan
    (fun t ht => (houts t ht).readsFrom.mono hscans.symm.subset) l

theorem query_gives_of_served (hserved : db.Served) (q : Query) :
    (Binding.query db q).Gives (Binding.planOf db q) :=
  Binding.query_gives q hserved.partitions

/-- So running the query gives it. -/
theorem Statement.run_select (hserved : db.Served) {statement : Statement} {q : Query}
    (hq : statement.request? = .ok (.select q)) {outs : List Term} {input : Plan}
    (h : Binding.planOf db q = .ok (.project outs input)) (j : Log.Journal) :
    statement.run.result db j = .ok ⟨⟨outs.map Term.text,
      (input.product db.store).map fun ts => outs.filterMap (·.among ts), 0⟩, true⟩ :=
  Statement.run_select_of_ok hq (h ▸ query_gives_of_served hserved q) (query_of_planOf hserved h) j

/-- It fails if there is no plan. -/
theorem Statement.run_select_of_error (hserved : db.Served) {statement : Statement} {q : Query}
    (hq : statement.request? = .ok (.select q)) {e : Error} (h : Binding.planOf db q = .error e)
    (j : Log.Journal) : statement.run.result db j = .error e := by
  have hplan : (Binding.request db (.select q)).Gives (.error e) :=
    h ▸ query_gives_of_served hserved q
  exact Statement.run_of_no_plan hq hplan j

/-- Asking for all rows of a relation gives its stored rows in their order. -/
theorem Statement.run_all (hserved : db.Served) {statement : Statement} {name : String}
    {r : Schema} (hr : db.catalog.lookup? name = some r)
    (hq : statement.request? = .ok (.select (.all name))) (j : Log.Journal) :
    statement.run.result db j = .ok ⟨⟨(Scope.mk [r]).expandAll.map BoundAttribute.text,
      (db.store.tuples r).map (·.values), 0⟩, true⟩ := by
  rw [Statement.run_select hserved hq (Binding.planOf_all hr), Plan.product_all, List.map_map]
  rfl

/-- In a `Reachable` state in which all that was inserted `Fits`, a query that can be bound succeeds
with the rows of `Query.answer`, up to their order. -/
theorem Reachable.select_answers (h : Reachable Request.Fits db) {statement : Statement}
    {q : Query} (hq : statement.request? = .ok (.select q))
    (hbound : ∃ l j p, (Binding.query db q).result l j = .ok p) (j : Log.Journal) :
    (∀ name ∈ q.relations, ∃ r, db.catalog.lookup? name = some r ∧ db.store.Serves r)
      ∧ ∃ result, statement.run.result db j = .ok result
        ∧ (result.outcome.rows.map some).Perm (q.answer db) := by
  have hserved := h.served
  have hgives := Binding.query_gives q fun r hr => by
    obtain ⟨t, ht, -⟩ := hserved _ _ hr
    exact ⟨t, ht⟩
  obtain ⟨l, k, p, hp⟩ := hbound
  rw [hgives l k] at hp
  rw [hp] at hgives
  obtain ⟨outs, input, rs, rfl, hjoinable, hscans, houts, hn, hnames, hlookup, -⟩ :=
    Binding.planOf_eq_ok hp
  have hrelations : ∀ name ∈ q.relations,
      ∃ r, db.catalog.lookup? name = some r ∧ db.store.Serves r := by
    intro name hname
    rw [← hnames] at hname
    obtain ⟨r, hr, rfl⟩ := List.mem_map.1 hname
    exact ⟨r, hlookup r hr, hserved _ _ (hlookup r hr)⟩
  have hplan : ∀ l, Operator.Served (db.withLayout l).store input := by
    refine fun l => ⟨fun r hr => hserved _ _ (hlookup r (hscans.subset hr)), ?_⟩
    exact (hscans.map (·.name)).symm.nodup hn
  have hreads : ∀ t ∈ outs, t.ReadsFrom input.scans :=
    fun t ht => (houts t ht).readsFrom.mono hscans.symm.subset
  have hquery : ∀ l, (Execution.query (db.withLayout l).store (.project outs input) l).1
      = .ok ⟨outs.map Term.text,
        (input.product db.store).map fun ts => outs.filterMap (·.among ts), 0⟩ :=
    fun l => Execution.query_project hjoinable (hplan l) hreads l
  refine ⟨hrelations, _, Statement.run_select_of_ok hq hgives hquery j, ?_⟩
  exact Binding.product_perm_answer hp

/-! ## A small join -/

/-- Two relations of numbers, the first of which holds a seven and an eight, the second two sevens;
hash tables are allowed. -/
def withSevens : Database :=
  let created := (Statement.request (.createTable "b" [⟨"n", .integer⟩] none)).run.after
    withNumbers []
  let filled := (Statement.request (.insert "b" [[.int 7], [.int 7]])).run.after
    ((Statement.request (.insert "a" [[.int 7], [.int 8]])).run.after created []) []
  { filled with config := { filled.config with hashJoin := true, maxBuildRows := 2 } }

theorem reachable_withSevens : Reachable Request.Fits withSevens := by
  have hcreate : ∀ name ∈ ["a", "b"],
      Request.Fits (.createTable name [⟨"n", .integer⟩] none) := by
    intro name hname
    refine ⟨?_, by decide, by simpa using (by decide : (Utf8.encode "n").length < 2 ^ 32)⟩
    revert name
    decide
  have hinsert : ∀ name (v w : Int64), Request.Fits (.insert name [[.int v], [.int w]]) := by
    simp [Request.Fits, Datum.Fits]
  have hempty : Reachable Request.Fits ⟨.empty, Store.volatile.create Catalog.metadata, {}⟩ :=
    .created rfl (Database.create_eq rfl [])
  have ha := hempty.requested (hcreate "a" (by simp)) []
  have hb := ha.requested (hcreate "b" (by simp)) []
  exact ((hb.requested (hinsert "a" 7 8) []).requested (hinsert "b" 7 7) []).configured true 2

/-- The numbers of the second relation that are also in the first. -/
def common : Query where
  relations := ["b", "a"]
  comparisons := [⟨.attr ⟨some "a", "n"⟩, .attr ⟨some "b", "n"⟩⟩]
  outputs := [⟨some "b", "n"⟩]
  distinct := false
  orderBy := none

theorem select_answers_common :
    ∃ result, (Statement.request (.select common)).run.result withSevens [] = .ok result
      ∧ (result.outcome.rows.map some).Perm [some [.int 7], some [.int 7]] := by
  have hbound : (Binding.query withSevens common).result .empty []
      = .ok (Operator.commonNumbers .hash) := by
    decide +kernel
  have hanswer : common.answer withSevens = [some [.int 7], some [.int 7]] := rfl
  have hrequest : (Statement.request (.select common)).request? = .ok (.select common) := rfl
  obtain ⟨-, h⟩ := reachable_withSevens.select_answers hrequest ⟨_, _, _, hbound⟩ []
  rwa [hanswer] at h

end Session

end RelQuery
