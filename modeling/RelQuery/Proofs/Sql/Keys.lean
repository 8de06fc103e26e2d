/-
  Tables and their primary keys: which definitions of tables make a request, and which column is the
  key then.

  A key may be declared by an option of a column or by a constraint of the table. Both write into
  one place, which can be written once. So what is read is the row of all positions declared, the
  columns' before the constraints' (`CreateTable.request_eq_ok_iff`), and it is accepted if there is
  at most one in it. A constraint means the first column of a name; two columns of one name are not
  noticed here but when the request is bound, and then no other column has the name of the key.

  Main statement: `CreateTable.supported_iff`.
-/
import RelQuery.Proofs.Sql.Clauses
import RelQuery.Proofs.Record
import RelQuery.Proofs.Session

namespace RelQuery.Sql

/-! ## What is supported -/

/-- The column is written as this attribute. -/
def Column.Defines (c : Column) (a : Attribute) : Prop :=
  c.type.attributeType = .ok a.type ∧ a.name = c.name.text

def TableConstraint.isPrimaryKey : TableConstraint → Bool
  | primaryKey .. => true
  | other _ => false

/-- How often a definition declares a primary key, in options and constraints together. -/
def CreateTable.keyDeclarations (t : CreateTable) : Nat :=
  (t.columns.flatMap (·.options)).countP (·.2 = .primaryKey)
    + t.constraints.countP (·.isPrimaryKey)

/-- The table has a plain name, its columns have supported types and no options but the key, its
constraints declare one of its columns the key, and there is at most one such declaration. -/
structure CreateTable.Supported (t : CreateTable) : Prop where
  name : ∃ i, t.name = [i]
  types : ∀ c ∈ t.columns, ∃ type, c.type.attributeType = .ok type
  options : ∀ c ∈ t.columns, ∀ option ∈ c.options, option.2 = .primaryKey
  constraints : ∀ constraint ∈ t.constraints, ∃ name i, constraint = .primaryKey name [i]
    ∧ ∃ c ∈ t.columns, c.name.text = i.text
  once : t.keyDeclarations ≤ 1

/-- The key is the column with the option, or the first column of the name in the constraint. -/
structure CreateTable.HasKey (t : CreateTable) (key : Option Nat) : Prop where
  option : ∀ p c name, t.columns[p]? = some c → (name, .primaryKey) ∈ c.options → key = some p
  constraint : ∀ name i, .primaryKey name [i] ∈ t.constraints →
    ∃ p, key = some p ∧ t.columns.findIdx? (·.name.text = i.text) = some p
  undeclared : t.keyDeclarations = 0 → key = none

/-! ## A place that can be written once -/

theorem toList_eq_toList_iff {α : Type} {k k' : Option α} : k.toList = k'.toList ↔ k = k' := by
  constructor
  · intro h
    have hhead := congrArg List.head? h
    simpa using hhead
  · rintro rfl
    rfl

theorem exists_toList_eq {α : Type} {as : List α} (h : as.length ≤ 1) :
    ∃ k : Option α, k.toList = as := by
  rcases as with _ | ⟨a, _ | ⟨b, as⟩⟩
  · exact ⟨none, rfl⟩
  · exact ⟨some a, rfl⟩
  · simp at h

/-- If there is at most one thing in two rows, then at most one in the first of them. -/
theorem exists_toList_iff {α : Type} {key : Option α} {as bs : List α} :
    (∃ k : Option α, k.toList = as ∧ key.toList = k.toList ++ bs) ↔ key.toList = as ++ bs := by
  constructor
  · rintro ⟨k, rfl, h⟩
    exact h
  · intro h
    have hlength : as.length ≤ 1 := by
      have hkey := congrArg List.length h
      rw [List.length_append] at hkey
      have := Option.length_toList_le (o := key)
      omega
    obtain ⟨k, rfl⟩ := exists_toList_eq hlength
    exact ⟨k, rfl, h⟩

theorem declareKey_eq_ok_iff {key key' : Option Nat} {position : Nat} :
    declareKey key position = .ok key' ↔ key'.toList = key.toList ++ [position] := by
  cases key with
  | none =>
    rw [declareKey, Except.ok.injEq, eq_comm]
    exact Option.toList_eq_singleton_iff.symm
  | some p =>
    refine iff_of_false (fun h => by cases h) fun h => ?_
    have hlength := Option.length_toList_le (o := key')
    rw [h] at hlength
    simp at hlength

theorem keyAfterOptions_eq_ok_iff {c : Column} {position : Nat} {key key' : Option Nat}
    {options : List (Option Ident × ColumnOption)} :
    keyAfterOptions c position key options = .ok key'
      ↔ (∀ option ∈ options, option.2 = .primaryKey)
        ∧ key'.toList = key.toList ++ options.map fun _ => position := by
  fun_induction keyAfterOptions c position key options with
  | case1 key =>
    simp [toList_eq_toList_iff, eq_comm]
  | case2 key name options ih =>
    simp only [bind_eq_ok_iff, declareKey_eq_ok_iff, ih, List.forall_mem_cons, true_and]
    rw [List.map_cons, List.append_cons _ _ (options.map _), ← exists_toList_iff]
    constructor
    · rintro ⟨k, hk, hall, hkey⟩
      exact ⟨hall, k, hk, hkey⟩
    · rintro ⟨hall, k, hk, hkey⟩
      exact ⟨k, hk, hall, hkey⟩
  | case3 key name option options h =>
    refine iff_of_false (fun h => by cases h) fun hall => ?_
    exact h (hall.1 _ List.mem_cons_self)

/-- The positions that the options of columns declare the key, from a position on. -/
def declaredBy (position : Nat) : List Column → List Nat
  | [] => []
  | c :: columns => c.options.map (fun _ => position) ++ declaredBy (position + 1) columns

theorem attributesOf_cons (position : Nat) (key : Option Nat) (c : Column)
    (columns : List Column) : attributesOf position key (c :: columns)
      = c.type.attributeType >>= fun type =>
        keyAfterOptions c position key c.options >>= fun key =>
        attributesOf (position + 1) key columns >>= fun rest =>
        .ok (⟨c.name.text, type⟩ :: rest.1, rest.2) := by
  rw [attributesOf]
  rfl

theorem attributesOf_eq_ok_iff {position : Nat} {key key' : Option Nat} {columns : List Column}
    {attributes : List Attribute} : attributesOf position key columns = .ok (attributes, key')
      ↔ List.Forall₂ Column.Defines columns attributes
        ∧ (∀ c ∈ columns, ∀ option ∈ c.options, option.2 = .primaryKey)
        ∧ key'.toList = key.toList ++ declaredBy position columns := by
  induction columns generalizing position key attributes with
  | nil =>
    simp [attributesOf, declaredBy, toList_eq_toList_iff, eq_comm]
  | cons c columns ih =>
    simp only [attributesOf_cons, bind_eq_ok_iff, keyAfterOptions_eq_ok_iff, List.forall_mem_cons]
    rw [declaredBy, ← List.append_assoc, ← exists_toList_iff]
    constructor
    · rintro ⟨type, htype, k, ⟨hc, hk⟩, ⟨rest, key''⟩, hrest, heq⟩
      cases heq
      obtain ⟨hdefines, hcolumns, hkey⟩ := ih.1 hrest
      exact ⟨.cons ⟨htype, rfl⟩ hdefines, ⟨hc, hcolumns⟩, k, hk, hkey⟩
    · rintro ⟨hdefines, ⟨hc, hcolumns⟩, k, hk, hkey⟩
      cases hdefines with
      | @cons _ a _ rest ha hdefines =>
        obtain ⟨name, type⟩ := a
        obtain ⟨htype, rfl⟩ := ha
        exact ⟨type, htype, k, ⟨hc, hk⟩, (rest, key'), ih.2 ⟨hdefines, hcolumns, hkey⟩, rfl⟩

/-- The constraint declares the key, as the first attribute of a name, which has this position. -/
inductive TableConstraint.Declares (attributes : List Attribute) : TableConstraint → Nat → Prop
  | key {name : Option Ident} {i : Ident} {p : Nat}
    (h : attributes.findIdx? (·.name = i.text) = some p) :
    Declares attributes (.primaryKey name [i]) p

theorem keyAfterConstraints_eq_ok_iff {attributes : List Attribute} {key key' : Option Nat}
    {constraints : List TableConstraint} :
    keyAfterConstraints attributes key constraints = .ok key'
      ↔ ∃ ps, List.Forall₂ (TableConstraint.Declares attributes) constraints ps
        ∧ key'.toList = key.toList ++ ps := by
  fun_induction keyAfterConstraints attributes key constraints with
  | case1 key =>
    simp [toList_eq_toList_iff, eq_comm]
  | case2 key name i constraints h =>
    refine iff_of_false (fun h => by cases h) ?_
    rintro ⟨ps, hps, -⟩
    cases hps with
    | cons hp _ =>
      cases hp with
      | key hp => cases h.symm.trans hp
  | case3 key name i constraints p h ih =>
    simp only [bind_eq_ok_iff, declareKey_eq_ok_iff, ih]
    constructor
    · rintro ⟨k, hk, ps, hps, hkey⟩
      rw [hk, ← List.append_cons] at hkey
      exact ⟨p :: ps, .cons (.key h) hps, hkey⟩
    · rintro ⟨ps, hps, hkey⟩
      cases hps with
      | cons hp hps =>
        cases hp with
        | key hp =>
          obtain rfl := Option.some.inj (h.symm.trans hp)
          rw [List.append_cons, ← exists_toList_iff] at hkey
          obtain ⟨k, hk, hkey⟩ := hkey
          exact ⟨k, hk, _, hps, hkey⟩
  | case4 key c constraints h =>
    refine iff_of_false (fun h => by cases h) ?_
    rintro ⟨ps, hps, -⟩
    cases hps with
    | cons hp _ =>
      cases hp with
      | key _ => exact h _ _ rfl

/-- A definition makes a request if all positions that it declares the key, taken together, are at
most one. -/
theorem CreateTable.request_iff {t : CreateTable} {r : Request} : t.request = .ok r
    ↔ ∃ name attributes key ps, t.name.Is name
      ∧ List.Forall₂ Column.Defines t.columns attributes
      ∧ (∀ c ∈ t.columns, ∀ option ∈ c.options, option.2 = .primaryKey)
      ∧ List.Forall₂ (TableConstraint.Declares attributes) t.constraints ps
      ∧ key.toList = declaredBy 0 t.columns ++ ps ∧ r = .createTable name attributes key := by
  constructor
  · intro h
    obtain ⟨name, hname, h⟩ := exists_of_bind_eq_ok h
    obtain ⟨⟨attributes, k⟩, hcolumns, h⟩ := exists_of_bind_eq_ok h
    obtain ⟨key, hconstraints, h⟩ := exists_of_bind_eq_ok h
    cases h
    obtain ⟨hdefines, hoptions, hk⟩ := attributesOf_eq_ok_iff.1 hcolumns
    obtain ⟨ps, hps, hkey⟩ := keyAfterConstraints_eq_ok_iff.1 hconstraints
    rw [hk] at hkey
    exact ⟨name, attributes, key, ps, singleName_eq_ok_iff.1 hname, hdefines, hoptions, hps,
      hkey, rfl⟩
  · rintro ⟨name, attributes, key, ps, hname, hdefines, hoptions, hps, hkey, rfl⟩
    obtain ⟨k, hk, hkey⟩ := exists_toList_iff.2 hkey
    have hcolumns : attributesOf 0 none t.columns = .ok (attributes, k) :=
      attributesOf_eq_ok_iff.2 ⟨hdefines, hoptions, hk⟩
    have hconstraints := keyAfterConstraints_eq_ok_iff.2 ⟨ps, hps, hkey⟩
    exact bind_eq_ok_iff.2 ⟨name, singleName_eq_ok_iff.2 hname,
      bind_eq_ok_iff.2 ⟨(attributes, k), hcolumns, bind_eq_ok_iff.2 ⟨key, hconstraints, rfl⟩⟩⟩

/-! ## Declarations -/

theorem names_eq_of_defines {columns : List Column} {attributes : List Attribute}
    (h : List.Forall₂ Column.Defines columns attributes) :
    attributes.map (·.name) = columns.map (·.name.text) := by
  induction h with
  | nil => rfl
  | cons hc _ ih => rw [List.map_cons, List.map_cons, hc.2, ih]

/-- The first attribute of a name is the first column of that name. -/
theorem findIdx?_of_defines {columns : List Column} {attributes : List Attribute}
    (h : List.Forall₂ Column.Defines columns attributes) (name : String) :
    columns.findIdx? (·.name.text = name) = attributes.findIdx? (·.name = name) := by
  have hnames := congrArg (List.findIdx? (· = name)) (names_eq_of_defines h)
  rw [List.findIdx?_map, List.findIdx?_map] at hnames
  exact hnames.symm

theorem length_declaredBy (position : Nat) (columns : List Column) :
    (declaredBy position columns).length = (columns.flatMap (·.options)).length := by
  induction columns generalizing position with
  | nil => rfl
  | cons c columns ih => simp [declaredBy, ih]

/-- A column's position is declared if it has an option. -/
theorem mem_declaredBy {columns : List Column} {q : Nat} {c : Column}
    (hc : columns[q]? = some c) (hne : c.options ≠ []) (position : Nat) :
    position + q ∈ declaredBy position columns := by
  induction columns generalizing q position with
  | nil => simp at hc
  | cons d columns ih =>
    rw [declaredBy, List.mem_append]
    cases q with
    | zero =>
      obtain rfl : d = c := by simpa using hc
      left
      simpa [List.mem_map, List.ne_nil_iff_exists_cons] using hne
    | succ q =>
      have hrest := ih (by simpa using hc) (position + 1)
      rw [Nat.add_assoc, Nat.add_comm 1 q] at hrest
      exact .inr hrest

theorem TableConstraint.Declares.isPrimaryKey {attributes : List Attribute} {c : TableConstraint}
    {p : Nat} (h : c.Declares attributes p) : c.isPrimaryKey = true := by
  cases h
  rfl

/-- Where all options and constraints declare the key, there are as many of these declarations. -/
theorem CreateTable.keyDeclarations_eq {t : CreateTable} {attributes : List Attribute}
    {ps : List Nat} (hoptions : ∀ c ∈ t.columns, ∀ option ∈ c.options, option.2 = .primaryKey)
    (hps : List.Forall₂ (TableConstraint.Declares attributes) t.constraints ps) :
    t.keyDeclarations = (declaredBy 0 t.columns ++ ps).length := by
  have hcolumns : (t.columns.flatMap (·.options)).countP (·.2 = .primaryKey)
      = (t.columns.flatMap (·.options)).length := by
    rw [List.countP_eq_length]
    intro option hoption
    obtain ⟨c, hc, hoption⟩ := List.mem_flatMap.1 hoption
    exact decide_eq_true (hoptions c hc option hoption)
  have hconstraints : t.constraints.countP (·.isPrimaryKey) = t.constraints.length := by
    rw [List.countP_eq_length]
    intro c hc
    obtain ⟨p, -, hp⟩ := exists_mem_of_forall₂ hps hc
    exact hp.isPrimaryKey
  rw [keyDeclarations, hcolumns, hconstraints, List.length_append, length_declaredBy,
    hps.length_eq]

/-! ## Requests -/

/-- What makes a request is supported. -/
theorem CreateTable.supported_of_request {t : CreateTable} {r : Request} (h : t.request = .ok r) :
    t.Supported := by
  obtain ⟨name, attributes, key, ps, ⟨quote, hname⟩, hdefines, hoptions, hps, hkey, -⟩ :=
    CreateTable.request_iff.1 h
  refine ⟨⟨_, hname⟩, fun c hc => ?_, hoptions, fun c hc => ?_, ?_⟩
  · obtain ⟨a, -, ha⟩ := exists_mem_of_forall₂ hdefines hc
    exact ⟨a.type, ha.1⟩
  · obtain ⟨p, -, hp⟩ := exists_mem_of_forall₂ hps hc
    cases hp with
    | @key name i p hp =>
      rw [← findIdx?_of_defines hdefines, List.findIdx?_eq_some_iff_getElem] at hp
      obtain ⟨hlt, htext, -⟩ := hp
      exact ⟨name, i, rfl, _, List.getElem_mem hlt, of_decide_eq_true htext⟩
  · rw [CreateTable.keyDeclarations_eq hoptions hps, ← hkey]
    exact Option.length_toList_le

/-- What is supported makes a request. -/
theorem CreateTable.Supported.exists_request {t : CreateTable} (h : t.Supported) :
    ∃ r, t.request = .ok r := by
  obtain ⟨i, hname⟩ := h.name
  have hcolumns : ∀ c ∈ t.columns, ∃ a, c.Defines a := by
    intro c hc
    obtain ⟨type, htype⟩ := h.types c hc
    exact ⟨⟨c.name.text, type⟩, htype, rfl⟩
  obtain ⟨attributes, hdefines⟩ := exists_forall₂ hcolumns
  have hconstraints : ∀ constraint ∈ t.constraints, ∃ p, constraint.Declares attributes p := by
    intro constraint hconstraint
    obtain ⟨name, i, rfl, c, hc, htext⟩ := h.constraints constraint hconstraint
    have hsome : (t.columns.findIdx? (·.name.text = i.text)).isSome = true := by
      rw [List.findIdx?_isSome, List.any_eq_true]
      exact ⟨c, hc, decide_eq_true htext⟩
    obtain ⟨p, hp⟩ := Option.isSome_iff_exists.1 hsome
    exact ⟨p, .key (findIdx?_of_defines hdefines i.text ▸ hp)⟩
  obtain ⟨ps, hps⟩ := exists_forall₂ hconstraints
  have honce := h.once
  rw [CreateTable.keyDeclarations_eq h.options hps] at honce
  obtain ⟨key, hkey⟩ := exists_toList_eq honce
  exact ⟨_, CreateTable.request_iff.2 ⟨i.text, attributes, key, ps, ⟨i.quote, hname⟩, hdefines,
    h.options, hps, hkey, rfl⟩⟩

/-- The position that was declared, if one was, is the key. -/
theorem CreateTable.hasKey_of_declared {t : CreateTable} {attributes : List Attribute}
    {ps : List Nat} {key : Option Nat} (hdefines : List.Forall₂ Column.Defines t.columns attributes)
    (hoptions : ∀ c ∈ t.columns, ∀ option ∈ c.options, option.2 = .primaryKey)
    (hps : List.Forall₂ (TableConstraint.Declares attributes) t.constraints ps)
    (hkey : key.toList = declaredBy 0 t.columns ++ ps) : t.HasKey key where
  option p c name hc hoption := by
    have hmem := mem_declaredBy hc (List.ne_nil_of_mem hoption) 0
    rw [Nat.zero_add] at hmem
    exact Option.mem_toList.1 (hkey ▸ List.mem_append_left ps hmem)
  constraint name i hconstraint := by
    obtain ⟨p, hmem, hp⟩ := exists_mem_of_forall₂ hps hconstraint
    cases hp with
    | key hp =>
      rw [← findIdx?_of_defines hdefines] at hp
      exact ⟨p, Option.mem_toList.1 (hkey ▸ List.mem_append_right _ hmem), hp⟩
  undeclared hzero := by
    rw [CreateTable.keyDeclarations_eq hoptions hps, ← hkey] at hzero
    simpa using hzero

/-- Where the columns make a schema, no two of them have one name. -/
theorem Column.eq_of_name_eq {columns : List Column} {attributes : List Attribute}
    (hdefines : List.Forall₂ Column.Defines columns attributes)
    (hnodup : (attributes.map (·.name)).Nodup) {p q : Nat} {c d : Column}
    (hc : columns[p]? = some c) (hd : columns[q]? = some d) (h : d.name.text = c.name.text) :
    q = p := by
  rw [names_eq_of_defines hdefines] at hnodup
  have hq : q < (columns.map (·.name.text)).length := by
    obtain ⟨hq, -⟩ := List.getElem?_eq_some_iff.1 hd
    simpa using hq
  refine (List.getElem?_inj hq hnodup).1 ?_
  rw [List.getElem?_map, List.getElem?_map, hc, hd]
  exact congrArg some h

/-- A definition of a table makes a request if and only if it is `Supported`. The request has the
attributes that the columns define (`Column.Defines`) and the declared key (`HasKey`); if it can be
bound, no other column has the name of the key. -/
theorem CreateTable.supported_iff (t : CreateTable) :
    ((∃ r, (Statement.createTable t).request = .ok r) ↔ t.Supported)
    ∧ ∀ r, (Statement.createTable t).request = .ok r → ∃ name attributes key,
      r = .createTable name attributes key ∧ t.name.Is name
      ∧ List.Forall₂ Column.Defines t.columns attributes ∧ t.HasKey key
      ∧ ∀ db l j plan, (Binding.request db r).result l j = .ok plan → ∀ p, key = some p →
        ∃ c, t.columns[p]? = some c
          ∧ ∀ q d, t.columns[q]? = some d → d.name.text = c.name.text → q = p := by
  refine ⟨⟨?_, fun h => h.exists_request⟩, fun r hr => ?_⟩
  · rintro ⟨r, hr⟩
    exact CreateTable.supported_of_request hr
  · obtain ⟨name, attributes, key, ps, hname, hdefines, hoptions, hps, hkey, rfl⟩ :=
      CreateTable.request_iff.1 hr
    refine ⟨name, attributes, key, rfl, hname, hdefines,
      CreateTable.hasKey_of_declared hdefines hoptions hps hkey, ?_⟩
    intro db l j plan hplan p hp
    cases Binding.request_eq_ok hplan with
    | @create _ _ _ s hdefine =>
      obtain ⟨-, rfl, rfl⟩ := Schema.eq_of_define hdefine
      have hlt : p < t.columns.length := hdefines.length_eq ▸ s.key_lt p hp
      refine ⟨t.columns[p], List.getElem?_eq_getElem hlt, fun q d hd htext => ?_⟩
      exact Column.eq_of_name_eq hdefines s.names_nodup (List.getElem?_eq_getElem hlt) hd htext

/-- `CREATE TABLE r (a INTEGER, b TEXT, PRIMARY KEY (b))`. -/
def keyedByConstraint : CreateTable where
  orReplace := false
  qualifiers := []
  ifNotExists := false
  name := [⟨"r", none⟩]
  cluster := none
  columns :=
    [⟨⟨"a", none⟩, { text := "INTEGER", kind := .integer }, none, []⟩,
      ⟨⟨"b", none⟩, { text := "TEXT", kind := .text }, none, []⟩]
  constraints := [.primaryKey none [⟨"b", none⟩]]
  withoutRowId := false
  like := none
  clone := none
  clauses := []
  source := none
  closing := []

theorem CreateTable.supported_keyedByConstraint :
    ∃ attributes, (Statement.createTable keyedByConstraint).request
      = .ok (.createTable "r" attributes (some 1)) := by
  have hsupported : keyedByConstraint.Supported := by
    refine ⟨⟨_, rfl⟩, ?_, ?_, ?_, by decide⟩
    · simp [keyedByConstraint, DataType.attributeType]
    · simp [keyedByConstraint]
    · simp [keyedByConstraint]
  obtain ⟨hiff, hrequest⟩ := keyedByConstraint.supported_iff
  obtain ⟨r, hr⟩ := hiff.2 hsupported
  obtain ⟨name, attributes, key, rfl, ⟨quote, hname⟩, -, hkey, -⟩ := hrequest r hr
  obtain ⟨p, rfl, hp⟩ := hkey.constraint none ⟨"b", none⟩ List.mem_cons_self
  cases hname
  have hone : some 1 = some p := hp
  cases hone
  exact ⟨attributes, hr⟩

end RelQuery.Sql
