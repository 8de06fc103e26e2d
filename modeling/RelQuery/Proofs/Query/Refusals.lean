/-
  Requests are refused for what they say: one that has no plan fails with a schema error, because a
  name or a value does not fit the catalog, or with a plan error, because its predicates do not form
  a tree. Nothing is read from the store that could fail.

  Main statement: `Session.plan_failsOnly`.
-/
import RelQuery.Proofs.Query.Binding
import RelQuery.Session

namespace RelQuery

/-- The request does not fit the catalog, or it has no plan. -/
def Error.Refuses (e : Error) : Prop := e.kind.isSchema = true ∨ e.kind.isPlan = true

/-! ## Schemas and values -/

theorem Schema.define_failsOnly (name : String) (attributes : List Attribute)
    (primaryKey : Option Nat) :
    FailsOnly Error.Refuses (Schema.define name attributes primaryKey) := by
  unfold define
  split
  · exact .error (.inl rfl)
  · split
    · exact .error (.inl rfl)
    · cases primaryKey with
      | none => exact .ok _
      | some p =>
        dsimp only
        split
        · exact .ok _
        · exact .error (.inl rfl)

theorem Schema.checkTypes_failsOnly (position : Nat) (attributes : List Attribute)
    (values : List Datum) : FailsOnly Error.Refuses (checkTypes position attributes values) := by
  fun_induction checkTypes position attributes values with
  | case1 _ _ _ _ _ _ ih => exact ih
  | case2 => exact .error (.inl rfl)
  | case3 => exact .ok _

theorem Tuple.ofValues_failsOnly (r : Schema) (values : List Datum) :
    FailsOnly Error.Refuses (ofValues r values) := by
  unfold ofValues
  split
  · exact .ok _
  · rename_i e he
    refine .error (?_ : e.Refuses)
    unfold Schema.checkValues at he
    split at he
    · cases he
      exact .inl rfl
    · exact Schema.checkTypes_failsOnly _ _ _ e he

theorem Scope.resolve_failsOnly (s : Scope) (n : AttributeName) :
    FailsOnly Error.Refuses (s.resolve n) := by
  unfold resolve
  split
  · unfold resolveIn
    split
    · exact .error (.inl rfl)
    · split
      · exact .error (.inl rfl)
      · exact .ok _
  · unfold resolveAnywhere
    split
    · exact .error (.inl rfl)
    · exact .ok _
    · exact .error (.inl rfl)

/-! ## Join trees -/

namespace JoinTree

theorem checkCount_failsOnly (relations edges : Nat) :
    FailsOnly Error.Refuses (checkCount relations edges) := by
  unfold checkCount
  split
  · exact .error (.inr rfl)
  · split
    · exact .error (.inr rfl)
    · split
      · exact .error (.inr rfl)
      · exact .ok _

theorem pick_failsOnly (joined : List Schema) (edges : List Edge) :
    FailsOnly Error.Refuses (pick joined edges) := by
  induction edges with
  | nil => exact .ok _
  | cons e edges ih =>
    rw [pick]
    split
    · exact .error (.inr rfl)
    · exact .ok _
    · exact .ok _
    · refine ih.bind fun found _ => ?_
      cases found <;> exact .ok _

theorem chain_failsOnly (joined : List Schema) (edges : List Edge) :
    FailsOnly Error.Refuses (chain joined edges) := by
  fun_induction chain joined edges with
  | case1 => exact .ok _
  | case2 joined edges hne e he =>
    have hrefuses := pick_failsOnly joined edges e he
    exact .error hrefuses
  | case3 => exact .error (.inr rfl)
  | case4 joined edges hne e rest hp _ ih => exact ih.map _

theorem planOf_failsOnly (db : Database) (relations : List Schema) (filters : List Predicate)
    (edges : List Edge) : FailsOnly Error.Refuses (planOf db relations filters edges) := by
  refine (checkCount_failsOnly _ _).bind fun _ _ => ?_
  split
  · exact .error (.inr rfl)
  · exact .ok _
  · exact (chain_failsOnly _ _).map _

end JoinTree

/-! ## Requests -/

namespace Binding

theorem relations_failsOnly (catalog : Catalog) (bound : List Schema) (names : List String) :
    FailsOnly Error.Refuses (relations catalog bound names) := by
  induction names generalizing bound with
  | nil => exact .ok _
  | cons name names ih =>
    refine ((catalog.lookup_failsOnly name).mono fun _ => .inl).bind fun r _ => ?_
    split
    · exact .error (.inl rfl)
    · exact ih _

theorem operand_failsOnly (s : Scope) (o : Operand) :
    FailsOnly Error.Refuses (operand s o) := by
  cases o with
  | constant d => exact .ok _
  | attr n => exact (s.resolve_failsOnly n).map _

theorem predicateOf_failsOnly (s : Scope) (c : Comparison) :
    FailsOnly Error.Refuses (predicateOf s c) := by
  refine (operand_failsOnly s _).bind fun left _ => (operand_failsOnly s _).bind fun right _ => ?_
  split
  · exact .error (.inr rfl)
  · exact .ok _

theorem outputs_failsOnly (s : Scope) (names : List AttributeName) :
    FailsOnly Error.Refuses (outputs s names) := by
  unfold outputs
  split
  · exact .ok _
  · exact (FailsOnly.mapM fun n _ => s.resolve_failsOnly n).map _

theorem planOf_failsOnly (db : Database) (q : Query) :
    FailsOnly Error.Refuses (planOf db q) := by
  refine (relations_failsOnly _ _ _).bind fun rs _ => ?_
  refine (FailsOnly.mapM fun c _ => predicateOf_failsOnly _ c).bind fun predicates _ => ?_
  refine (outputs_failsOnly _ _).bind fun outs _ => ?_
  split
  · exact .error (.inr rfl)
  · split
    · exact .error (.inr rfl)
    · exact (JoinTree.planOf_failsOnly _ _ _ _).bind fun input _ => .ok _

/-- Binding a request refuses it or succeeds, if the partitions of all relations are there. -/
theorem request_failsOnly {db : Database}
    (h : ∀ r : Schema, db.catalog.lookup? r.name = some r → ∃ t, db.store.contents r.name = .ok t)
    (request : Request) : (Binding.request db request).FailsOnly Error.Refuses := by
  have hquery : ∀ q, (query db q).FailsOnly Error.Refuses := fun q =>
    (query_gives q h).failsOnly (planOf_failsOnly db q)
  cases request with
  | createTable name attributes primaryKey =>
    exact ((Reading.Gives.ofExcept _).failsOnly (Schema.define_failsOnly _ _ _)).bind fun s =>
      (Reading.Gives.pure _).failsOnly (.ok _)
  | dropTable name => exact (Reading.Gives.pure _).failsOnly (.ok _)
  | insert name rows =>
    have hrows : ∀ r, FailsOnly Error.Refuses (rows.mapM (Tuple.ofValues r)) := fun r =>
      .mapM fun values _ => Tuple.ofValues_failsOnly r values
    have hlookup : FailsOnly Error.Refuses (db.catalog.lookup name) :=
      (db.catalog.lookup_failsOnly name).mono fun _ => .inl
    exact ((Reading.Gives.ofExcept _).failsOnly hlookup).bind fun r =>
      ((Reading.Gives.ofExcept _).failsOnly (hrows r)).bind fun tuples =>
        (Reading.Gives.pure _).failsOnly (.ok _)
  | select q => exact hquery q
  | showTables => exact (Reading.Gives.pure _).failsOnly (.ok _)
  | explain q => exact (hquery q).bind fun p => (Reading.Gives.pure _).failsOnly (.ok _)

end Binding

/-- Planning a request refuses it or succeeds. -/
theorem Session.plan_failsOnly {db : Database}
    (h : ∀ r : Schema, db.catalog.lookup? r.name = some r → ∃ t, db.store.contents r.name = .ok t)
    (request : Request) : (Session.plan request db).FailsOnly Error.Refuses := by
  refine (Binding.request_failsOnly h request).bind fun p => ?_
  dsimp only
  split
  · exact ((Reading.Gives.report _ _).failsOnly (.ok _)).bind fun _ =>
      (Reading.Gives.pure _).failsOnly (.ok _)
  · exact (Reading.Gives.pure _).failsOnly (.ok _)

end RelQuery
