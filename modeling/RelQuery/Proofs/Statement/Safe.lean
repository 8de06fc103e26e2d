/-
  Statements are safe: in every state that statements lead to, none fails because of what is stored
  or of how it is carried out, and the rows of a query have the types that its columns declare.

  A statement fails where it is read, bound or checked, which blames the statement. What comes after
  is carried out on entries that are tuples of their relations, and by plans whose terms refer to
  what their rows carry.

  Main statement: `Session.Reachable.safe`.
-/
import RelQuery.Proofs.Query.Refusals
import RelQuery.Proofs.Query.Select
import RelQuery.Proofs.Sql.Refusals

namespace RelQuery

open Log (Journal)

/-! ## Errors that blame the statement -/

/-- Neither what is stored nor how it is read is at fault. -/
def Error.Harmless (e : Error) : Prop := e.kind ≠ .storageFault ∧ e.kind ≠ .runtime

theorem Sql.Misread.harmless {e : Error} (h : Sql.Misread e) : e.Harmless := by
  have h : e.kind = .parse := h
  unfold Error.Harmless
  rw [h]
  decide

theorem Error.Refuses.harmless {e : Error} (h : e.Refuses) : e.Harmless := by
  unfold Refuses at h
  constructor <;> (intro hkind; rw [hkind] at h; revert h; decide)

/-! ## Types of rows -/

/-- The term is an attribute of a relation of the catalog, which declares the type of the value. -/
def Term.Declares (catalog : Catalog) (t : Term) (d : Datum) : Prop :=
  ∃ a, t = .attr a ∧ catalog.lookup? a.relation.name = some a.relation ∧ a.type? = some d.type

/-- A tuple has a value of the declared type at every position of its relation. -/
theorem Tuple.exists_typed {t : Tuple} {p : Nat} (h : p < t.schema.arity) :
    ∃ d, t.values[p]? = some d ∧ (BoundAttribute.mk t.schema p).type? = some d.type := by
  obtain ⟨d, hd⟩ := t.exists_value h
  have htypes : (t.values.map (·.type))[p]? = (t.schema.attributes.map (·.type))[p]? := by
    rw [t.typed]
  rw [List.getElem?_map, List.getElem?_map, hd] at htypes
  exact ⟨d, hd, htypes.symm⟩

theorem forall₂_filterMap {α β : Type} {f : α → Option β} {R : α → β → Prop} {as : List α}
    (h : ∀ a ∈ as, ∃ b, f a = some b ∧ R a b) : List.Forall₂ R as (as.filterMap f) := by
  induction as with
  | nil => exact .nil
  | cons a as ih =>
    obtain ⟨⟨b, hb, hr⟩, has⟩ := List.forall_mem_cons.1 h
    rw [List.filterMap_cons, hb]
    exact .cons hr (ih has)

namespace Binding

/-- A select list consists of attributes. -/
theorem exists_attr_of_outputs {s : Scope} {names : List AttributeName} {outs : List Term}
    (h : outputs s names = .ok outs) : ∀ t ∈ outs, ∃ a, t = .attr a := by
  have hmap : ∀ as : List BoundAttribute, ∀ t ∈ as.map Term.attr, ∃ a, t = .attr a := by
    intro as t ht
    obtain ⟨a, -, rfl⟩ := List.mem_map.1 ht
    exact ⟨a, rfl⟩
  unfold outputs at h
  split at h
  · cases h
    exact hmap _
  · cases hattributes : names.mapM s.resolve with
    | error e => rw [hattributes] at h; cases h
    | ok as =>
      rw [hattributes] at h
      cases h
      exact hmap as

variable {db : Database} {q : Query} {outs : List Term} {input : Plan}

theorem exists_attr_of_planOf (h : planOf db q = .ok (.project outs input)) :
    ∀ t ∈ outs, ∃ a, t = .attr a := by
  unfold planOf at h
  obtain ⟨rs, -, h⟩ := exists_of_bind_eq_ok h
  obtain ⟨predicates, -, h⟩ := exists_of_bind_eq_ok h
  obtain ⟨outs', houts, h⟩ := exists_of_bind_eq_ok h
  split at h
  · cases h
  · split at h
    · cases h
    · obtain ⟨input', -, h⟩ := exists_of_bind_eq_ok h
      cases h
      exact exists_attr_of_outputs houts

/-- The rows that a query's plan shows have a value for each output, of the type that the output's
attribute declares. -/
theorem declares_of_planOf (h : planOf db q = .ok (.project outs input)) {ts : List Tuple}
    (hts : ts ∈ input.product db.store) :
    List.Forall₂ (Term.Declares db.catalog) outs (outs.filterMap (·.among ts)) := by
  obtain ⟨_, _, rs, heq, -, hscans, hbound, hn, -, hlookup, -⟩ := planOf_eq_ok h
  cases heq
  have hschemas := schemas_of_mem_combinations (List.mem_of_mem_filter hts)
  have hapart := apart_of_schemas hschemas ((hscans.map (·.name)).symm.nodup hn)
  refine forall₂_filterMap fun t ht => ?_
  obtain ⟨⟨r, p⟩, rfl⟩ := exists_attr_of_planOf h t ht
  obtain ⟨hr, hp⟩ := hbound _ ht
  have hmem := hscans.symm.subset hr
  rw [← hschemas] at hmem
  obtain ⟨u, hu, rfl⟩ := List.mem_map.1 hmem
  obtain ⟨d, hd, htype⟩ := u.exists_typed hp
  refine ⟨d, ?_, ⟨u.schema, p⟩, rfl, hlookup _ hr, htype⟩
  rw [Term.among_attr hapart hu]
  exact hd

end Binding

/-! ## Carrying out requests -/

namespace Session

variable {fits : Request → Prop} {db : Database}

/-- A plan that reads can be carried out if all records can be read. -/
theorem exists_result_of_isQuery (hserved : db.Served) {request : Request} {p : Plan}
    {l : Store.Layout} {j : Journal} (hplan : (plan request db).result l j = .ok p)
    (hread : p.isQuery = true) (m : Store.Layout) (k : Journal) :
    ∃ outcome, (Execution.run p).result (db.withLayout m) k = .ok outcome := by
  cases plan_eq_ok hplan with
  | create | drop | insert => cases hread
  | showTables | explain => exact ⟨_, rfl⟩
  | select q outs input =>
    have hgives : (Binding.request db (.select q)).Gives (Binding.planOf db q) :=
      query_gives_of_served hserved q
    rw [plan_gives hgives l j] at hplan
    exact ⟨_, query_of_planOf hserved hplan m⟩

/-- A request fails only with errors that blame it. -/
theorem executeRequest_failsOnly (hstep : db.InStep) (hserved : db.Served) (request : Request)
    (j : Journal) : FailsOnly Error.Harmless ((executeRequest request).result db j) := by
  intro e he
  cases hplan : (plan request db).result db.store.layout j with
  | error e' =>
    rw [(executeRequest_of_error hplan).1] at he
    cases he
    exact (plan_failsOnly hserved.partitions request _ _ e hplan).harmless
  | ok p =>
    obtain ⟨l, k, hresult, -⟩ := executeRequest_of_ok hplan
    have hfrom := plan_eq_ok hplan
    have hcatalog : db.catalog = (db.withLayout l).catalog := rfl
    rw [hcatalog] at hfrom
    rw [hresult] at he
    rcases (hstep.withLayout l).run_cases hfrom k with
      ⟨-, hread | ⟨e', he', hkind⟩⟩ | ⟨outcome, hok, -⟩
    · obtain ⟨outcome, hok⟩ := exists_result_of_isQuery hserved hplan hread l k
      rw [hok] at he
      cases he
    · rw [he'] at he
      cases he
      exact Error.Refuses.harmless (.inl hkind)
    · rw [hok] at he
      cases he

/-- So does a statement. -/
theorem Statement.run_failsOnly (hstep : db.InStep) (hserved : db.Served) (statement : Statement)
    (j : Journal) : FailsOnly Error.Harmless (statement.run.result db j) := by
  intro e he
  cases hr : statement.request? with
  | error e' =>
    rw [(Statement.run_of_error hr db j).1] at he
    cases he
    cases statement with
    | text sql => exact (Sql.readRequest_failsOnly sql e hr).harmless
    | request r => cases hr
  | ok r =>
    obtain ⟨k, hresult, -⟩ := Statement.run_of_ok hr db j
    rw [hresult] at he
    exact executeRequest_failsOnly hstep hserved r k e he

/-- The rows of a query have a value for each column, of the type that the attribute of the column
declares. -/
theorem Statement.rows_typed (hserved : db.Served) {statement : Statement} {q : Query}
    (hq : statement.request? = .ok (.select q)) {j : Journal} {result : Result}
    (h : statement.run.result db j = .ok result) :
    ∃ outs input, Binding.planOf db q = .ok (.project outs input)
      ∧ result.outcome.columns = outs.map Term.text
      ∧ ∀ row ∈ result.outcome.rows, List.Forall₂ (Term.Declares db.catalog) outs row := by
  cases hbound : Binding.planOf db q with
  | error e =>
    have hgives := query_gives_of_served hserved q
    rw [hbound] at hgives
    have hfails : (plan (.select q) db).Gives (.error e) := Reading.Gives.bind_error hgives
    obtain ⟨k, hresult, -⟩ := Statement.run_of_ok hq db j
    rw [hresult, (executeRequest_of_error (hfails _ k)).1] at h
    cases h
  | ok p =>
    obtain ⟨outs, input, rs, rfl, -⟩ := Binding.planOf_eq_ok hbound
    rw [Statement.run_select hserved hq hbound] at h
    cases h
    refine ⟨outs, input, rfl, rfl, fun row hrow => ?_⟩
    obtain ⟨ts, hts, rfl⟩ := List.mem_map.1 hrow
    exact Binding.declares_of_planOf hbound hts

/-- In a `Reachable` state with `FitsRows` each entry of a relation is a tuple that it `Admits`,
under its key; no statement fails in storage or at run time; and each row of a query has the values
that its columns declare (`Term.Declares`). -/
theorem Reachable.safe (h : Reachable Request.FitsRows db) :
    (∀ name r, db.catalog.lookup? name = some r → ∃ t, db.store.contents name = .ok t
      ∧ ∀ e ∈ t.entries, ∃ u, Tuple.decode r e.2 = .ok u ∧ r.Admits u.values ∧ u.HasKey e.1)
      ∧ (∀ (statement : Statement) j e, statement.run.result db j = .error e →
        e.kind ≠ .storageFault ∧ e.kind ≠ .runtime)
      ∧ ∀ (statement : Statement) q j result, statement.request? = .ok (.select q) →
        statement.run.result db j = .ok result →
          ∃ outs input, (Binding.query db q).Gives (.ok (.project outs input))
            ∧ result.outcome.columns = outs.map Term.text
            ∧ ∀ row ∈ result.outcome.rows, List.Forall₂ (Term.Declares db.catalog) outs row := by
  have hintact := h.intact
  refine ⟨fun name r hr => ?_, fun statement j => ?_, fun statement q j result hq hok => ?_⟩
  · obtain ⟨t, ht, hentries⟩ := hintact name r hr
    rw [Catalog.name_of_lookup? hr] at ht
    refine ⟨t, Store.contents_eq_ok_iff.2 ht, fun e he => ?_⟩
    obtain ⟨u, hu, hkey⟩ := hentries e he
    obtain rfl := Tuple.schema_of_decode hu
    exact ⟨u, hu, u.typed, hkey⟩
  · exact Statement.run_failsOnly h.inStep hintact.served statement j
  · obtain ⟨outs, input, hbound, hcolumns, hrows⟩ := Statement.rows_typed hintact.served hq hok
    exact ⟨outs, input, hbound ▸ query_gives_of_served hintact.served q, hcolumns, hrows⟩

/-- The rows of a relation of numbers are numbers, and a text for a number is refused as such. -/
theorem safe_withSevens :
    (∃ result, (Statement.request (.select (.all "b"))).run.result withSevens [] = .ok result
        ∧ result.outcome.rows = [[.int 7], [.int 7]]
        ∧ ∀ row ∈ result.outcome.rows, ∃ d, row = [d] ∧ d.type = .integer)
      ∧ ∃ e, (Statement.request (.insert "b" [[.string "7"]])).run.result withSevens [] = .error e
        ∧ e.kind ≠ .storageFault ∧ e.kind ≠ .runtime := by
  have hreachable := reachable_withSevens.mono fun _ => Request.Fits.rows
  obtain ⟨-, hharmless, htyped⟩ := hreachable.safe
  have hfails : (Statement.request (.insert "b" [[.string "7"]])).run.result withSevens []
      = .error (.typeMismatch 0 .integer .string) := by decide +kernel
  refine ⟨?_, _, hfails, hharmless _ _ _ hfails⟩
  have hstored : (withSevens.catalog.lookup? "b").map
      (fun r => (r.attributes, (withSevens.store.tuples r).map (·.values)))
        = some ([⟨"n", .integer⟩], [[.int 7], [.int 7]]) := by decide +kernel
  obtain ⟨r, hr, hstored⟩ := Option.map_eq_some_iff.1 hstored
  obtain ⟨hattributes, hvalues⟩ := Prod.mk.inj hstored
  have hserved := hreachable.intact.served
  have hrequest :
      (Statement.request (.select (.all "b"))).request? = .ok (.select (.all "b")) := rfl
  have hrun := Statement.run_all hserved hr hrequest []
  refine ⟨_, hrun, hvalues, fun row hrow => ?_⟩
  obtain ⟨outs, input, hgives, -, hrows⟩ := htyped _ _ _ _ hrequest hrun
  have hplan := query_gives_of_served hserved (.all "b") .empty []
  rw [hgives .empty [], Binding.planOf_all hr] at hplan
  cases hplan
  have hrow := hrows row hrow
  have houts : (Scope.mk [r]).expandAll.map Term.attr = [.attr ⟨r, 0⟩] := by
    simp [Scope.expandAll, Schema.arity, hattributes]
  rw [houts] at hrow
  obtain _ | ⟨⟨a, ha, -, htype⟩, _ | _⟩ := hrow
  cases ha
  rw [BoundAttribute.type?, hattributes] at htype
  exact ⟨_, rfl, (Option.some.inj htype).symm⟩

end Session

end RelQuery
