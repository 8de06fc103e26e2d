/-
  The rows that a query plan stands for, said without cursors, held rows and hash tables.

  A scan stands for the decoded records of its relation, in ascending order of their keys, that
  satisfy its filter; a join for the pairs of a left and a right row whose operands are equal,
  left rows first; a projection for the values of its outputs.

  Main statements: on rows that carry what a term reads the term has a value
  (`Term.exists_value`), and rows of different relations can be joined (`Row.combine_eq_ok`).
-/
import RelQuery.Operator

namespace RelQuery

/-! ## Stored tuples -/

/-- The tuples of a relation that can be decoded, in ascending order of their keys. -/
def Store.tuples (s : Store) (r : Schema) : List Tuple :=
  match s.contents r.name with
  | .ok t => t.entries.filterMap fun e => (Tuple.decode r e.2).toOption
  | .error _ => []

/-- The partition of a relation is there, and each of its records decodes. -/
def Store.Serves (s : Store) (r : Schema) : Prop :=
  ∃ t, s.contents r.name = .ok t ∧ ∀ e ∈ t.entries, ∃ u, Tuple.decode r e.2 = .ok u

theorem Tuple.schema_of_decode {r : Schema} {bytes : Bytes} {t : Tuple}
    (h : Tuple.decode r bytes = .ok t) : t.schema = r := by
  unfold Tuple.decode at h
  cases hv : (Tuple.readValues r.attributes).all bytes with
  | error e => rw [hv] at h; cases h
  | ok v => rw [hv] at h; cases h; rfl

theorem Store.schema_of_mem_tuples {s : Store} {r : Schema} {t : Tuple} (h : t ∈ s.tuples r) :
    t.schema = r := by
  unfold Store.tuples at h
  split at h
  · obtain ⟨e, -, he⟩ := List.mem_filterMap.1 h
    cases hd : Tuple.decode r e.2 with
    | error e => rw [hd] at he; cases he
    | ok u =>
      rw [hd] at he
      cases he
      exact Tuple.schema_of_decode hd
  · cases h

/-! ## Terms on rows -/

/-- The value of a term on a row, if it has one. -/
def Term.read (t : Term) (row : Row) : Option Datum := (t.value row).toOption

theorem Term.read_of_value {t : Term} {row : Row} {d : Datum} (h : t.value row = .ok d) :
    t.read row = some d := by
  rw [Term.read, h]; rfl

/-- Whether the left term reads the same value from one row as the right term from another. -/
def Predicate.joins (p : Predicate) (left right : Row) : Bool :=
  p.left.read left = p.right.read right

namespace Row

/-- The tuples of a row that was not projected. -/
def parts : Row → List Tuple
  | base t => [t]
  | composite ts => ts
  | projected _ => []

/-- The join of two rows that share no relation. -/
def beside (left right : Row) : Row := composite (left.parts ++ right.parts)

/-- A row of one tuple for each of the relations, in their order. -/
def Of (rs : List Schema) (row : Row) : Prop :=
  row.tuples = .ok row.parts ∧ row.parts.map (·.schema) = rs

theorem base_of {r : Schema} {t : Tuple} (h : t.schema = r) : (base t).Of [r] :=
  ⟨rfl, by simp [parts, h]⟩

theorem beside_of {l r : Row} {ls rs : List Schema} (hl : l.Of ls) (hr : r.Of rs) :
    (l.beside r).Of (ls ++ rs) :=
  ⟨rfl, (List.map_append ..).trans (by rw [hl.2, hr.2])⟩

/-- The names of the relations of a row, read off its tuples. -/
theorem Of.names {row : Row} {rs : List Schema} (h : row.Of rs) :
    row.parts.map (·.schema.name) = rs.map (·.name) := by
  rw [← h.2, List.map_map]
  rfl

/-- The tuple of a relation in a row that was not projected. -/
theorem tupleOf?_eq_find? {row : Row} {rs : List Schema} (h : row.Of rs) (r : Schema) :
    row.tupleOf? r = row.parts.find? fun t => t.schema.SameRelation r := by
  cases row with
  | base t =>
    by_cases ht : t.schema.SameRelation r <;> simp [tupleOf?, parts, ht]
  | composite ts => rfl
  | projected vs => exact absurd h.1 (by simp [tuples])

/-- Tuples of pairwise different relations can all be added. -/
theorem extend_eq_ok {ts more : List Tuple}
    (h : ((ts ++ more).map fun t => t.schema.name).Nodup) :
    extend ts more = .ok (ts ++ more) := by
  induction more generalizing ts with
  | nil => simp [extend]
  | cons t more ih =>
    have hfresh : ¬ ts.any (fun u => u.schema.SameRelation t.schema) = true := by
      intro hany
      obtain ⟨u, hu, hut⟩ := List.any_eq_true.1 hany
      rw [List.map_append, List.nodup_append] at h
      exact h.2.2 _ (List.mem_map_of_mem hu) _ (List.mem_map_of_mem List.mem_cons_self)
        (of_decide_eq_true hut)
    rw [extend, if_neg hfresh, ih (by simpa using h)]
    simp

theorem combine_eq_ok {l r : Row} {ls rs : List Schema} (hl : l.Of ls) (hr : r.Of rs)
    (h : ((ls ++ rs).map (·.name)).Nodup) : l.combine r = .ok (l.beside r) := by
  have hn : ((l.parts ++ r.parts).map fun t => t.schema.name).Nodup := by
    rw [List.map_append, hl.names, hr.names, ← List.map_append]
    exact h
  have he : extend [] (l.parts ++ r.parts) = .ok (l.parts ++ r.parts) := extend_eq_ok hn
  unfold combine
  rw [hl.1, hr.1]
  show (extend [] (l.parts ++ r.parts)).map composite = _
  rw [he]
  rfl

end Row

/-- What a term reads can be found in a row of these relations. -/
def Term.ReadsFrom (rs : List Schema) : Term → Prop
  | .constant _ => True
  | .attr a => ∃ r ∈ rs, a.relation.SameRelation r ∧ a.position < r.arity

theorem Term.ReadsFrom.mono {rs rs' : List Schema} {t : Term} (h : t.ReadsFrom rs)
    (hs : rs ⊆ rs') : t.ReadsFrom rs' := by
  cases t with
  | constant d => trivial
  | attr a =>
    obtain ⟨r, hr, ha⟩ := h
    exact ⟨r, hs hr, ha⟩

theorem Tuple.length_values (t : Tuple) : t.values.length = t.schema.arity := by
  simpa [Schema.arity] using congrArg List.length t.typed

/-- The tuple of a relation is found among tuples of pairwise different relations. -/
theorem Row.find?_of_mem {ts : List Tuple} {t : Tuple} {r : Schema}
    (hn : (ts.map (·.schema.name)).Nodup) (ht : t ∈ ts) (hr : t.schema.SameRelation r) :
    (ts.find? fun u => u.schema.SameRelation r) = some t := by
  induction ts with
  | nil => cases ht
  | cons u ts ih =>
    obtain ⟨hu, hn⟩ := List.nodup_cons.1 hn
    rcases List.mem_cons.1 ht with rfl | ht
    · simp [hr]
    · have hne : ¬ u.schema.SameRelation r := fun h =>
        hu (List.mem_map.2 ⟨t, ht, Eq.trans hr (Eq.symm h)⟩)
      simp [hne, ih hn ht]

/-- A term has a value on every row that carries what it reads. -/
theorem Term.exists_value {t : Term} {row : Row} {rs : List Schema} (ht : t.ReadsFrom rs)
    (hrow : row.Of rs) (hn : (rs.map (·.name)).Nodup) : ∃ d, t.value row = .ok d := by
  cases t with
  | constant d => exact ⟨d, rfl⟩
  | attr a =>
    obtain ⟨r, hr, hname, hlt⟩ := ht
    rw [← hrow.names] at hn
    rw [← hrow.2] at hr
    obtain ⟨u, hu, rfl⟩ := List.mem_map.1 hr
    have hfind := Row.find?_of_mem hn hu (Eq.symm hname)
    rw [← Row.tupleOf?_eq_find? hrow] at hfind
    rw [← Tuple.length_values] at hlt
    refine ⟨u.values[a.position], ?_⟩
    show a.value row = _
    unfold BoundAttribute.value
    rw [hfind]
    simp [List.getElem?_eq_getElem hlt]

/-! ## Plans -/

namespace Plan

/-- The relations that a plan scans, left to right. -/
def scans : Plan → List Schema
  | scan r _ => [r]
  | join _ _ left right => left.scans ++ right.scans
  | project _ input => input.scans
  | _ => []

/-- The rows of a query plan, in order. -/
def rows (s : Store) : Plan → List Row
  | scan r filter =>
    ((s.tuples r).map Row.base).filter fun row => filter.all (·.joins row row)
  | join _ on left right =>
    (left.rows s).flatMap fun l => ((right.rows s).filter (on.joins l)).map l.beside
  | project outputs input =>
    (input.rows s).map fun row => .projected (outputs.filterMap (·.read row))
  | _ => []

/-- Scans and joins whose predicates read what the rows in question carry. -/
def Joinable : Plan → Prop
  | scan r filter => ∀ p ∈ filter, p.left.ReadsFrom [r] ∧ p.right.ReadsFrom [r]
  | join _ on left right =>
    left.Joinable ∧ right.Joinable ∧ on.left.ReadsFrom left.scans
      ∧ on.right.ReadsFrom right.scans
  | _ => False

/-- The rows of scans and joins carry a tuple of each relation that is scanned. -/
theorem of_mem_rows {p : Plan} (hp : p.Joinable) {s : Store} {row : Row} (h : row ∈ p.rows s) :
    row.Of p.scans := by
  induction p generalizing row with
  | scan r filter =>
    obtain ⟨hmem, -⟩ := List.mem_filter.1 h
    obtain ⟨t, ht, rfl⟩ := List.mem_map.1 hmem
    exact Row.base_of (Store.schema_of_mem_tuples ht)
  | join strategy on left right ihl ihr =>
    obtain ⟨l, hl, hmem⟩ := List.mem_flatMap.1 h
    obtain ⟨r, hr, rfl⟩ := List.mem_map.1 hmem
    exact Row.beside_of (ihl hp.1 hl) (ihr hp.2.1 (List.mem_filter.1 hr).1)
  | project | create | drop | showTables | insert | explain => exact hp.elim

end Plan

/-! ## A small relation -/

/-- A relation of one integer. -/
def Schema.numbers (name : String) : Schema :=
  ⟨name, [⟨"n", .integer⟩], none, by simp, by simp, by simp⟩

/-- The number of a row of such a relation. -/
def Term.number (name : String) : Term := .attr ⟨.numbers name, 0⟩

end RelQuery
