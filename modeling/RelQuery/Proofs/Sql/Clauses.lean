/-
  Which clauses a request has no place for: those that are refused, and those that are dropped.

  A clause that a request does not carry ought to be refused with its statement. Some are, such
  as LIMIT, aliases and column lists. The others are read and have no effect: FETCH beside
  LIMIT, ON CONFLICT and RETURNING, IF EXISTS, the query behind AS, the direction of an order.
  `Statement.bare` takes just these out of a statement, and what is left says the request and
  nothing else.

  Main statement: `Statement.request_eq_ok_iff_says`.
-/
import RelQuery.Proofs.Sql.Refusals

namespace RelQuery.Sql

/-! ## Statements without the clauses that are dropped -/

def TableFactor.bare : TableFactor → TableFactor
  | .table name _ as _ => .table name none as none
  | .other text => .other text

def TableWithJoins.bare (t : TableWithJoins) : TableWithJoins := { t with factor := t.factor.bare }

def OrderItem.bare (o : OrderItem) : OrderItem := { o with direction := none }

def Select.bare (s : Select) : Select where
  distinct := s.distinct
  top := none
  projection := s.projection
  into := none
  tables := s.tables.map TableWithJoins.bare
  lateralViews := []
  selection := s.selection
  groupBy := s.groupBy
  clusterBy := []
  distributeBy := []
  sortBy := []
  having := s.having
  qualify := none

def QueryBody.bare : QueryBody → QueryBody
  | .select s => .select s.bare
  | .values _ rows => .values false rows
  | .other text => .other text

def Query.bare (q : Query) : Query where
  ctes := q.ctes
  body := q.body.bare
  orderBy := q.orderBy.map OrderItem.bare
  limit := q.limit
  offset := q.offset
  fetch := none
  locks := []

def Column.bare (c : Column) : Column := { c with collation := none }

/-- A table is created with its columns and constraints, even if another table or a query was to
say what is in it, and whether or not there is one of the name. -/
def CreateTable.bare (t : CreateTable) : CreateTable where
  orReplace := false
  qualifiers := []
  ifNotExists := false
  name := t.name
  cluster := none
  columns := t.columns.map Column.bare
  constraints := t.constraints
  withoutRowId := false
  like := none
  clone := none
  clauses := []
  source := none
  closing := []

/-- Rows are inserted as they are listed, whatever is said about their order, their number and
conflicts between them. -/
def Insert.bare (i : Insert) : Insert where
  head := "INSERT INTO"
  name := i.name
  columns := i.columns
  partition := none
  laterColumns := []
  source := .ofBody none i.source.body.bare
  onConflict := none
  returning := none

def DropTable.bare (d : DropTable) : DropTable := ⟨false, d.names, []⟩

/-- A statement without those of its clauses that are read and have no effect. -/
def Statement.bare : Statement → Statement
  | createTable t => .createTable t.bare
  | dropTable d => .dropTable d.bare
  | insert i => .insert i.bare
  | query q => .query q.bare
  | showTables _ => .showTables ⟨false, false, none, none⟩
  | explain _ s => .explain "EXPLAIN" s.bare
  | explainTable text => .explainTable text
  | other text => .other text

/-! ## What a statement says -/

/-- The name has no qualifiers and is this one, in quotes or not. -/
def Name.Is (n : Name) (text : String) : Prop := ∃ quote, n = [⟨text, quote⟩]

/-- The expression is the name of the attribute. -/
def Expr.Names (e : Expr) (a : AttributeName) : Prop := e.attributeName = .ok a

/-- The select list says what is shown: everything, by a star alone, or these attributes. -/
inductive Projects : List SelectItem → List AttributeName → Prop
  | all : Projects [.wildcard] []
  | these {es : List Expr} {as : List AttributeName} (h : List.Forall₂ Expr.Names es as) :
    Projects (es.map .plain) as

/-- The condition is the conjunction of the comparisons; without any there may be none. -/
inductive Selects : Option Expr → List Comparison → Prop
  | all : Selects none []
  | those {e : Expr} {comparisons : List Comparison} (h : e.conjuncts = .ok comparisons) :
    Selects (some e) comparisons

/-- The query lists relations, and says what of their product is shown and in which order. It has
no other clause. -/
inductive Query.Says : Query → RelQuery.Query → Prop
  | select {distinct : Bool} {projection : List SelectItem} {outputs : List AttributeName}
    {names : List Name} {relations : List String} {selection : Option Expr}
    {comparisons : List Comparison} {order : List Expr} {keys : List AttributeName}
    (hprojection : Projects projection outputs) (hnames : List.Forall₂ Name.Is names relations)
    (hne : relations ≠ []) (hselection : Selects selection comparisons)
    (horder : List.Forall₂ Expr.Names order keys) :
    Query.Says
      { ctes := none
        body := .select
          { distinct, top := none, projection, into := none
            tables := names.map fun n => ⟨.table n none none none, []⟩
            lateralViews := [], selection, groupBy := [], clusterBy := [], distributeBy := []
            sortBy := [], having := none, qualify := none }
        orderBy := order.map fun e => ⟨e, none⟩
        limit := none, offset := none, fetch := none, locks := [] }
      { relations, comparisons, outputs, distinct
        orderBy := if keys = [] then none else some keys }

/-- The statement says what is requested, and has no other clause. -/
inductive Statement.Says : Statement → Request → Prop
  /-- The columns say what the attributes are, and they or the constraints which of them is the
  key. The length of a type and the name of a constraint have no part in that. -/
  | createTable {n : Name} {name : String} {columns : List Column}
    {constraints : List TableConstraint} {attributes : List Attribute} {key key' : Option Nat}
    (hname : n.Is name) (hplain : ∀ c ∈ columns, c.collation = none)
    (hcolumns : attributesOf 0 none columns = .ok (attributes, key))
    (hconstraints : keyAfterConstraints attributes key constraints = .ok key') :
    Statement.Says
      (.createTable
        { orReplace := false, qualifiers := [], ifNotExists := false, name := n, cluster := none
          columns, constraints, withoutRowId := false, like := none, clone := none
          clauses := [], source := none, closing := [] })
      (.createTable name attributes key')
  | dropTable {n : Name} {name : String} (hname : n.Is name) :
    Statement.Says (.dropTable { ifExists := false, names := [n], behavior := [] })
      (.dropTable name)
  | insert {n : Name} {name : String} {rows : List (List Expr)} {values : List (List Datum)}
    (hname : n.Is name)
    (hrows : List.Forall₂ (List.Forall₂ fun e d => Expr.datum e = .ok d) rows values) :
    Statement.Says
      (.insert
        { head := "INSERT INTO", name := n, columns := [], partition := none, laterColumns := []
          source := .ofBody none (.values false rows), onConflict := none, returning := none })
      (.insert name values)
  | select {q : Query} {r : RelQuery.Query} (h : q.Says r) : Statement.Says (.query q) (.select r)
  | showTables :
    Statement.Says
      (.showTables { extended := false, full := false, database := none, filter := none })
      .showTables
  | explain {q : Query} {r : RelQuery.Query} (h : q.Says r) :
    Statement.Says (.explain "EXPLAIN" (.query q)) (.explain r)

/-! ## Queries -/

theorem singleName_eq_ok_iff {n : Name} {text : String} : singleName n = .ok text ↔ n.Is text := by
  constructor
  · intro h
    unfold singleName at h
    split at h
    · rename_i i
      cases h
      exact ⟨i.quote, rfl⟩
    · cases h
  · rintro ⟨quote, rfl⟩
    rfl

theorem TableWithJoins.relation_eq_ok_iff {t : TableWithJoins} {relation : String} :
    t.relation = .ok relation
      ↔ ∃ n : Name, t.bare = ⟨.table n none none none, []⟩ ∧ n.Is relation := by
  obtain ⟨factor, joins⟩ := t
  constructor
  · intro h
    unfold TableWithJoins.relation at h
    split at h
    · cases h
    · rename_i hjoins
      obtain rfl : joins = [] := by simpa using hjoins
      split at h
      · rename_i n args hints hfactor
        obtain rfl : factor = _ := hfactor
        exact ⟨n, rfl, singleName_eq_ok_iff.1 h⟩
      · cases h
  · rintro ⟨n, hbare, hn⟩
    cases factor with
    | table name args as hints =>
      cases hbare
      exact singleName_eq_ok_iff.2 hn
    | other text => cases hbare

theorem selectList_eq_ok_iff {items : List SelectItem} {outputs : List AttributeName} :
    selectList items = .ok outputs ↔ Projects items outputs := by
  constructor
  · intro h
    unfold selectList at h
    split at h
    · cases h
      exact .all
    · have hitems : List.Forall₂ (fun item a => ∃ e, id item = .plain e ∧ Expr.Names e a) items
          outputs := by
        refine (forall₂_of_mapM_eq_ok h).imp fun item a ha => ?_
        cases item with
        | plain e => exact ⟨e, rfl, ha⟩
        | wildcard | qualified | aliased => cases ha
      obtain ⟨es, hes, hnames⟩ := forall₂_exists_iff.1 hitems
      rw [List.map_id] at hes
      rw [hes]
      exact .these hnames
  · intro h
    cases h with
    | all => rfl
    | @these es as h =>
      unfold selectList
      split
      · rename_i heq
        have hmem : SelectItem.wildcard ∈ es.map SelectItem.plain := by
          rw [heq]
          exact List.mem_singleton_self _
        obtain ⟨e, -, he⟩ := List.mem_map.1 hmem
        cases he
      · exact mapM_eq_ok_of_forall₂ (List.forall₂_map_left_iff.2 h)

theorem tables_eq_ok_iff {tables : List TableWithJoins} {relations : List String} :
    tables.mapM TableWithJoins.relation = .ok relations
      ↔ ∃ names : List Name, tables.map TableWithJoins.bare
          = names.map (fun n => ⟨.table n none none none, []⟩)
        ∧ List.Forall₂ Name.Is names relations := by
  rw [mapM_eq_ok_iff, ← forall₂_exists_iff]
  simp only [TableWithJoins.relation_eq_ok_iff]

theorem orderBy_eq_ok_iff {orderBy : List OrderItem} {keys : List AttributeName} :
    orderBy.mapM (fun o => o.value.attributeName) = .ok keys
      ↔ ∃ order : List Expr, orderBy.map OrderItem.bare = order.map (fun e => ⟨e, none⟩)
        ∧ List.Forall₂ Expr.Names order keys := by
  have hitem : ∀ (o : OrderItem) (a : AttributeName), o.value.attributeName = .ok a
      ↔ ∃ e : Expr, o.bare = ⟨e, none⟩ ∧ e.Names a := by
    intro o a
    constructor
    · exact fun h => ⟨o.value, rfl, h⟩
    · rintro ⟨e, he, h⟩
      cases he
      exact h
  rw [mapM_eq_ok_iff, ← forall₂_exists_iff]
  simp only [hitem]

theorem selection_eq_ok_iff {selection : Option Expr} {comparisons : List Comparison} :
    selection.elim (.ok []) Expr.conjuncts = .ok comparisons ↔ Selects selection comparisons := by
  constructor
  · intro h
    cases selection with
    | none => cases h; exact .all
    | some e => exact .those h
  · intro h
    cases h with
    | all => rfl
    | those h => exact h

theorem Select.request_eq (s : Select) (orderBy : List OrderItem) : s.request orderBy =
    if s.groupBy ≠ [] ∨ s.having.isSome then .error (.unsupported "aggregation")
    else s.tables.mapM TableWithJoins.relation >>= fun relations =>
      if relations = [] then .error (.unsupported "SELECT without FROM")
      else selectList s.projection >>= fun outputs =>
        s.selection.elim (.ok []) Expr.conjuncts >>= fun comparisons =>
        orderBy.mapM (fun o => o.value.attributeName) >>= fun keys =>
          .ok { relations, comparisons, outputs, distinct := s.distinct
                orderBy := if orderBy = [] then none else some keys } := by
  unfold Select.request
  cases s.selection <;> rfl

theorem Select.request_eq_ok_iff {s : Select} {orderBy : List OrderItem} {r : RelQuery.Query} :
    s.request orderBy = .ok r ↔ ¬ (s.groupBy ≠ [] ∨ s.having.isSome)
      ∧ ∃ relations, s.tables.mapM TableWithJoins.relation = .ok relations ∧ relations ≠ []
      ∧ ∃ outputs, Projects s.projection outputs
      ∧ ∃ comparisons, Selects s.selection comparisons
      ∧ ∃ keys, orderBy.mapM (fun o => o.value.attributeName) = .ok keys
      ∧ { relations, comparisons, outputs, distinct := s.distinct
          orderBy := if orderBy = [] then none else some keys } = r := by
  rw [Select.request_eq]
  simp only [check_eq_ok_iff, bind_eq_ok_iff, selectList_eq_ok_iff, selection_eq_ok_iff,
    Except.ok.injEq]

/-- A query makes a request if it says it, apart from what is dropped. -/
theorem Query.request_eq_ok_iff {q : Query} {r : RelQuery.Query} :
    q.request = .ok r ↔ q.bare.Says r := by
  obtain ⟨ctes, body, orderBy, limit, offset, fetch, locks⟩ := q
  unfold Query.request
  rw [check_eq_ok_iff]
  constructor
  · rintro ⟨hclauses, h⟩
    obtain ⟨hctes, hlimit, hoffset⟩ : ctes = none ∧ limit = none ∧ offset = none := by
      simpa using hclauses
    subst hctes hlimit hoffset
    cases body with
    | select s =>
      obtain ⟨haggregates, relations, hrelations, hne, outputs, houtputs, comparisons, hcomparisons,
        keys, hkeys, rfl⟩ := Select.request_eq_ok_iff.1 h
      obtain ⟨hgroup, hhaving⟩ : s.groupBy = [] ∧ s.having = none := by simpa using haggregates
      have hnil : orderBy = [] ↔ keys = [] := by
        rw [← List.length_eq_zero_iff, ← List.length_eq_zero_iff,
          (forall₂_of_mapM_eq_ok hkeys).length_eq]
      obtain ⟨names, htables, hnames⟩ := tables_eq_ok_iff.1 hrelations
      obtain ⟨order, horderBy, horder⟩ := orderBy_eq_ok_iff.1 hkeys
      simp only [Query.bare, QueryBody.bare, Select.bare, htables, horderBy, hgroup, hhaving, hnil]
      exact .select houtputs hnames hne hcomparisons horder
    | values marked rows => cases h
    | other text => cases h
  · intro h
    generalize hbare : Query.bare ⟨ctes, body, orderBy, limit, offset, fetch, locks⟩ = bare at h
    cases h with
    | @select distinct projection outputs names relations selection comparisons order keys
        hprojection hnames hne hselection horder =>
      simp only [Query.bare, Query.mk.injEq] at hbare
      obtain ⟨rfl, hbody, horderBy, rfl, rfl, -, -⟩ := hbare
      cases body with
      | select s =>
        simp only [QueryBody.bare, Select.bare, QueryBody.select.injEq, Select.mk.injEq] at hbody
        obtain ⟨rfl, -, rfl, -, htables, -, rfl, hgroup, -, -, -, hhaving, -⟩ := hbody
        have hlength := congrArg List.length horderBy
        rw [List.length_map, List.length_map, horder.length_eq] at hlength
        have hnil : orderBy = [] ↔ keys = [] := by
          rw [← List.length_eq_zero_iff, ← List.length_eq_zero_iff, hlength]
        refine ⟨by simp, Select.request_eq_ok_iff.2 ⟨by simp [hgroup, hhaving], relations,
          tables_eq_ok_iff.2 ⟨names, htables, hnames⟩, hne, outputs, hprojection, comparisons,
          hselection, keys, orderBy_eq_ok_iff.2 ⟨order, horderBy, horder⟩, ?_⟩⟩
        simp only [hnil]
      | values marked rows => cases hbody
      | other text => cases hbody

/-! ## Statements -/

theorem keyAfterOptions_bare (c : Column) (position : Nat) (key : Option Nat)
    (options : List (Option Ident × ColumnOption)) :
    keyAfterOptions c.bare position key options = keyAfterOptions c position key options := by
  fun_induction keyAfterOptions c position key options with
  | case1 key => rfl
  | case2 key name options ih =>
    rw [keyAfterOptions]
    exact bind_congr_of_ok fun key' _ => ih key'
  | case3 key name option options h =>
    rw [keyAfterOptions]
    · rfl
    · exact h

/-- Collations have no part in the attributes. -/
theorem attributesOf_bare (position : Nat) (key : Option Nat) (columns : List Column) :
    attributesOf position key (columns.map Column.bare) = attributesOf position key columns := by
  induction columns generalizing position key with
  | nil => rfl
  | cons c columns ih =>
    have htype : c.bare.type = c.type := rfl
    have hname : c.bare.name = c.name := rfl
    have hoptions : c.bare.options = c.options := rfl
    rw [List.map_cons, attributesOf, attributesOf, htype, hname, hoptions]
    refine bind_congr_of_ok fun type _ => ?_
    refine (congrArg (· >>= _) (keyAfterOptions_bare c position key c.options)).trans ?_
    exact bind_congr_of_ok fun key' _ => congrArg (· >>= _) (ih (position + 1) key')

theorem CreateTable.request_eq_ok_iff {t : CreateTable} {r : Request} :
    t.request = .ok r ↔ (Statement.createTable t.bare).Says r := by
  constructor
  · intro h
    obtain ⟨name, hname, h⟩ := exists_of_bind_eq_ok h
    obtain ⟨⟨attributes, key⟩, hcolumns, h⟩ := exists_of_bind_eq_ok h
    obtain ⟨key', hconstraints, h⟩ := exists_of_bind_eq_ok h
    cases h
    refine .createTable (singleName_eq_ok_iff.1 hname) ?_ ?_ hconstraints
    · exact List.forall_mem_map.2 fun c _ => rfl
    · rw [attributesOf_bare]
      exact hcolumns
  · intro h
    cases h with
    | @createTable _ name _ _ attributes key key' hname _ hcolumns hconstraints =>
      rw [attributesOf_bare] at hcolumns
      refine bind_eq_ok_iff.2 ⟨name, singleName_eq_ok_iff.2 hname, ?_⟩
      refine bind_eq_ok_iff.2 ⟨(attributes, key), hcolumns, ?_⟩
      exact bind_eq_ok_iff.2 ⟨key', hconstraints, rfl⟩

theorem DropTable.request_eq_ok_iff {d : DropTable} {r : Request} :
    d.request = .ok r ↔ (Statement.dropTable d.bare).Says r := by
  constructor
  · intro h
    unfold DropTable.request at h
    split at h
    · rename_i n hn
      obtain ⟨name, hname, rfl⟩ := map_eq_ok_iff.1 h
      rw [DropTable.bare, hn]
      exact .dropTable (singleName_eq_ok_iff.1 hname)
    · cases h
  · intro h
    obtain ⟨ifExists, names, behavior⟩ := d
    cases h with
    | dropTable hname => exact map_eq_ok_iff.2 ⟨_, singleName_eq_ok_iff.2 hname, rfl⟩

theorem rows_eq_ok_iff {rows : List (List Expr)} {values : List (List Datum)} :
    rows.mapM (List.mapM Expr.datum) = .ok values
      ↔ List.Forall₂ (List.Forall₂ fun e d => Expr.datum e = .ok d) rows values := by
  rw [mapM_eq_ok_iff]
  simp only [mapM_eq_ok_iff]

theorem Insert.request_of_values {i : Insert} {marked : Bool} {rows : List (List Expr)}
    (h : i.source.body = .values marked rows) : i.request =
      if i.columns ≠ [] then .error (.unsupported "insert column list")
      else rows.mapM (List.mapM Expr.datum) >>= fun values =>
        singleName i.name >>= fun name => .ok (.insert name values) := by
  unfold Insert.request
  rw [h]
  rfl

theorem Insert.request_eq_ok_iff {i : Insert} {r : Request} :
    i.request = .ok r ↔ (Statement.insert i.bare).Says r := by
  obtain ⟨head, n, columns, partition, laterColumns, source, onConflict, returning⟩ := i
  obtain ⟨ctes, body, orderBy, limit, offset, fetch, locks⟩ := source
  cases body with
  | values marked rows =>
    rw [Insert.request_of_values rfl, check_eq_ok_iff, not_not]
    simp only [bind_eq_ok_iff, rows_eq_ok_iff, singleName_eq_ok_iff, Except.ok.injEq]
    constructor
    · rintro ⟨rfl, values, hrows, name, hname, rfl⟩
      exact .insert hname hrows
    · intro h
      cases h with
      | @insert _ name _ values hname hrows => exact ⟨rfl, values, hrows, name, hname, rfl⟩
  | select | other =>
    constructor
    · intro h
      unfold Insert.request at h
      dsimp only at h
      split at h <;> cases h
    · intro h
      cases h

/-- A statement makes just the request that it `Says` once it is `bare` of the clauses that are
dropped; anything else is `Misread`. -/
theorem Statement.request_eq_ok_iff_says (st : Statement) :
    FailsOnly Misread st.request ∧ ∀ r, st.request = .ok r ↔ st.bare.Says r := by
  refine ⟨st.request_failsOnly, fun r => ?_⟩
  cases st with
  | createTable t => exact CreateTable.request_eq_ok_iff
  | dropTable d => exact DropTable.request_eq_ok_iff
  | insert i => exact Insert.request_eq_ok_iff
  | query q =>
    constructor
    · intro h
      obtain ⟨query, hq, rfl⟩ := map_eq_ok_iff.1 h
      exact .select (Query.request_eq_ok_iff.1 hq)
    · intro h
      cases h with
      | select hq => exact map_eq_ok_iff.2 ⟨_, Query.request_eq_ok_iff.2 hq, rfl⟩
  | showTables l =>
    constructor
    · intro h
      cases h
      exact .showTables
    · intro h
      cases h
      rfl
  | explain head s =>
    cases s with
    | query q =>
      constructor
      · intro h
        obtain ⟨query, hq, rfl⟩ := map_eq_ok_iff.1 h
        exact .explain (Query.request_eq_ok_iff.1 hq)
      · intro h
        cases h with
        | explain hq => exact map_eq_ok_iff.2 ⟨_, Query.request_eq_ok_iff.2 hq, rfl⟩
    | createTable | dropTable | insert | showTables | explain | explainTable | other =>
      exact ⟨fun h => (nomatch h), fun h => (nomatch h)⟩
  | explainTable text => exact ⟨fun h => (nomatch h), fun h => (nomatch h)⟩
  | other text => exact ⟨fun h => (nomatch h), fun h => (nomatch h)⟩

/-- What bounds the rows of a query may be dropped with it. -/
example : (Statement.query
    { ctes := none
      body := .select
        { distinct := false, top := none, projection := [.wildcard], into := none
          tables := [⟨.table [⟨"r", none⟩] none none none, []⟩], lateralViews := []
          selection := none, groupBy := [], clusterBy := [], distributeBy := [], sortBy := []
          having := none, qualify := none }
      orderBy := [], limit := none, offset := none, fetch := some "FETCH FIRST 1 ROWS ONLY"
      locks := [] }).request = .ok (.select ⟨["r"], [], [], false, none⟩) := rfl

end RelQuery.Sql
