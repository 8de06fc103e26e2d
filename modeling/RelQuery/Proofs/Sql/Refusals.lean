/-
  Texts are refused with parse errors only, whatever is wrong with them.

  Main statement: `Sql.readRequest_failsOnly`.
-/
import RelQuery.Sql.Reading
import RelQuery.Proofs.Except

namespace RelQuery.Sql

/-- The text does not say what it should. -/
def Misread (e : Error) : Prop := e.kind = .parse

/-! ## Literals and expressions -/

theorem integerValue_failsOnly (numeral : String) (value : Nat) (cs : List Char) :
    FailsOnly Misread (integerValue numeral value cs) := by
  induction cs generalizing value with
  | nil => exact .ok _
  | cons c cs ih =>
    rw [integerValue]
    split
    · dsimp only
      split
      · exact ih _
      · exact .error rfl
    · exact .error rfl

theorem Literal.datum_failsOnly (literal : Literal) : FailsOnly Misread literal.datum := by
  unfold Literal.datum
  split
  · split
    · exact .error rfl
    · exact ((integerValue_failsOnly _ _ _).bind fun n _ => .ok _).map _
  · exact .ok _
  · exact .error rfl

theorem Expr.datum_failsOnly (e : Expr) : FailsOnly Misread e.datum := by
  fun_induction Expr.datum e with
  | case1 value => exact value.datum_failsOnly
  | case2 inner ih => exact ih
  | case3 operand ih =>
    refine ih.bind fun d _ => ?_
    cases d with
    | int v => exact .ok _
    | string s => exact .error rfl
  | case4 => exact .error rfl

theorem Expr.attributeName_failsOnly (e : Expr) : FailsOnly Misread e.attributeName := by
  unfold Expr.attributeName
  split
  · exact .ok _
  · exact .ok _
  · exact .error rfl
  · exact .error rfl

theorem Expr.operand_failsOnly (e : Expr) : FailsOnly Misread e.operand := by
  unfold Expr.operand
  split
  · exact (Expr.attributeName_failsOnly _).map _
  · exact (Expr.attributeName_failsOnly _).map _
  · exact (Expr.datum_failsOnly _).map _

theorem Expr.conjuncts_failsOnly (e : Expr) : FailsOnly Misread e.conjuncts := by
  fun_induction Expr.conjuncts e with
  | case1 inner ih => exact ih
  | case2 left right ihl ihr => exact ihl.bind fun ls _ => ihr.bind fun rs _ => .ok _
  | case3 left right =>
    exact left.operand_failsOnly.bind fun l _ => right.operand_failsOnly.bind fun r _ => .ok _
  | case4 => exact .error rfl

/-! ## Queries -/

theorem singleName_failsOnly (n : Name) : FailsOnly Misread (singleName n) := by
  unfold singleName
  split
  · exact .ok _
  · exact .error rfl

theorem TableWithJoins.relation_failsOnly (t : TableWithJoins) :
    FailsOnly Misread t.relation := by
  unfold TableWithJoins.relation
  split
  · exact .error rfl
  · split
    · exact singleName_failsOnly _
    · exact .error rfl

theorem selectList_failsOnly (items : List SelectItem) : FailsOnly Misread (selectList items) := by
  unfold selectList
  split
  · exact .ok _
  · refine .mapM fun item _ => ?_
    split
    · exact Expr.attributeName_failsOnly _
    · exact .error rfl

theorem Select.request_failsOnly (s : Select) (orderBy : List OrderItem) :
    FailsOnly Misread (s.request orderBy) := by
  have horder : FailsOnly Misread (orderBy.mapM fun o => o.value.attributeName) :=
    .mapM fun o _ => o.value.attributeName_failsOnly
  unfold Select.request
  refine .check rfl ?_
  refine (FailsOnly.mapM fun t _ => TableWithJoins.relation_failsOnly t).bind fun relations _ => ?_
  refine .check rfl ((selectList_failsOnly _).bind fun outputs _ => ?_)
  dsimp only
  split
  · exact (Expr.conjuncts_failsOnly _).bind fun comparisons _ => horder.bind fun order _ => .ok _
  · exact (FailsOnly.ok _).bind fun comparisons _ => horder.bind fun order _ => .ok _

theorem Query.request_failsOnly (q : Query) : FailsOnly Misread q.request := by
  unfold Query.request
  split
  · exact .error rfl
  · split
    · exact Select.request_failsOnly _ _
    · exact .error rfl

/-! ## Tables -/

theorem DataType.attributeType_failsOnly (t : DataType) : FailsOnly Misread t.attributeType := by
  rw [attributeType]
  cases t.kind with
  | other name => exact .error rfl
  | _ => exact .ok _

theorem declareKey_failsOnly (key : Option Nat) (position : Nat) :
    FailsOnly Misread (declareKey key position) := by
  unfold declareKey
  split
  · exact .ok _
  · exact .error rfl

theorem keyAfterOptions_failsOnly (c : Column) (position : Nat) (key : Option Nat)
    (options : List (Option Ident × ColumnOption)) :
    FailsOnly Misread (keyAfterOptions c position key options) := by
  fun_induction keyAfterOptions c position key options with
  | case1 => exact .ok _
  | case2 key name options ih => exact (declareKey_failsOnly _ _).bind fun k _ => ih k
  | case3 => exact .error rfl

theorem attributesOf_failsOnly (position : Nat) (key : Option Nat) (columns : List Column) :
    FailsOnly Misread (attributesOf position key columns) := by
  induction columns generalizing position key with
  | nil => exact .ok _
  | cons c columns ih =>
    rw [attributesOf]
    exact (DataType.attributeType_failsOnly _).bind fun type _ =>
      (keyAfterOptions_failsOnly _ _ _ _).bind fun k _ => (ih _ k).bind fun rest _ => .ok _

theorem keyAfterConstraints_failsOnly (attributes : List Attribute) (key : Option Nat)
    (constraints : List TableConstraint) :
    FailsOnly Misread (keyAfterConstraints attributes key constraints) := by
  fun_induction keyAfterConstraints attributes key constraints with
  | case1 => exact .ok _
  | case2 => exact .error rfl
  | case3 key name i constraints position hp ih =>
    exact (declareKey_failsOnly _ _).bind fun k _ => ih k
  | case4 => exact .error rfl

theorem CreateTable.request_failsOnly (t : CreateTable) : FailsOnly Misread t.request :=
  (singleName_failsOnly _).bind fun _ _ => (attributesOf_failsOnly _ _ _).bind fun _ _ =>
    (keyAfterConstraints_failsOnly _ _ _).bind fun _ _ => .ok _

theorem Insert.request_failsOnly (i : Insert) : FailsOnly Misread i.request := by
  unfold Insert.request
  refine .check rfl ?_
  split
  · rename_i rows _
    have hrows : FailsOnly Misread (rows.mapM (List.mapM Expr.datum)) :=
      .mapM fun row _ => .mapM fun e _ => e.datum_failsOnly
    exact hrows.bind fun values _ => (singleName_failsOnly _).bind fun name _ => .ok _
  · exact .error rfl

theorem DropTable.request_failsOnly (d : DropTable) : FailsOnly Misread d.request := by
  unfold DropTable.request
  split
  · exact (singleName_failsOnly _).map _
  · exact .error rfl

/-! ## Statements -/

theorem Statement.request_failsOnly (s : Statement) : FailsOnly Misread s.request := by
  unfold Statement.request
  split
  · exact CreateTable.request_failsOnly _
  · exact DropTable.request_failsOnly _
  · exact Insert.request_failsOnly _
  · exact (Query.request_failsOnly _).map _
  · exact .ok _
  · exact (Query.request_failsOnly _).map _
  · exact .error rfl
  · exact .error rfl
  · exact .error rfl

/-- A text that makes no request is refused with a parse error. -/
theorem readRequest_failsOnly (text : String) : FailsOnly Misread (readRequest text) := by
  unfold readRequest
  split
  · exact Statement.request_failsOnly _
  · exact .error rfl

end RelQuery.Sql
