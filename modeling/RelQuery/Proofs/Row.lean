/-
  Rows that were combined: they hold the tuples of both parts, no two of one relation, so what a
  term reads from one of the parts it also reads from the whole.

  Main statements: `Row.eq_of_combine`, and that predicates that hold on the parts, or between
  them, hold on the combined row (`Row.Meets.combine`).
-/
import RelQuery.Proofs.Plan.Product
import RelQuery.Proofs.Reading

namespace RelQuery

/-! ## Combined rows -/

namespace Row

/-- Tuples that could all be added stand behind those that were there. -/
theorem eq_of_extend {ts more us : List Tuple} (h : extend ts more = .ok us) (hts : Apart ts) :
    us = ts ++ more ∧ Apart us := by
  induction more generalizing ts with
  | nil =>
    cases h
    simpa using hts
  | cons t more ih =>
    rw [extend] at h
    split at h
    · cases h
    · rename_i hfresh
      have hapart : Apart (ts ++ [t]) := by
        have hnew : ∀ u ∈ ts, u.schema.name ≠ t.schema.name := by
          intro u hu hname
          exact hfresh (List.any_eq_true.2 ⟨u, hu, decide_eq_true hname⟩)
        unfold Apart at hts ⊢
        rw [List.map_append, List.nodup_append]
        refine ⟨hts, by simp, ?_⟩
        simpa using hnew
      simpa using ih h hapart

/-- A combined row lists the tuples of its parts, and no two of them are of one relation. -/
theorem eq_of_combine {l r c : Row} (h : l.combine r = .ok c) :
    ∃ ls rs, l.tuples = .ok ls ∧ r.tuples = .ok rs ∧ c = .composite (ls ++ rs)
      ∧ Apart (ls ++ rs) := by
  obtain ⟨ls, hl, h⟩ := exists_of_bind_eq_ok h
  obtain ⟨rs, hr, h⟩ := exists_of_bind_eq_ok h
  obtain ⟨us, hus, h⟩ := exists_of_bind_eq_ok h
  cases h
  obtain ⟨rfl, hapart⟩ := eq_of_extend hus List.nodup_nil
  exact ⟨ls, rs, hl, hr, rfl, hapart⟩

/-- The tuple of a relation is looked up among the tuples that a row is made of. -/
theorem tupleOf?_of_tuples {row : Row} {ts : List Tuple} (h : row.tuples = .ok ts) (r : Schema) :
    row.tupleOf? r = ts.find? fun t => t.schema.SameRelation r := by
  cases row with
  | base t =>
    cases h
    by_cases ht : t.schema.SameRelation r <;> simp [tupleOf?, ht]
  | composite us =>
    cases h
    rfl
  | projected vs => cases h

section

variable {l r c : Row}

/-- A tuple that the left part carries is the one that the combined row carries. -/
theorem tupleOf?_of_combine_left (h : l.combine r = .ok c) {q : Schema} {t : Tuple}
    (ht : l.tupleOf? q = some t) : c.tupleOf? q = some t := by
  obtain ⟨ls, rs, hl, -, rfl, -⟩ := eq_of_combine h
  rw [tupleOf?_of_tuples hl] at ht
  show (ls ++ rs).find? _ = some t
  rw [List.find?_append, ht]
  rfl

/-- So is one that the right part carries: the left part has none of its relation. -/
theorem tupleOf?_of_combine_right (h : l.combine r = .ok c) {q : Schema} {t : Tuple}
    (ht : r.tupleOf? q = some t) : c.tupleOf? q = some t := by
  obtain ⟨ls, rs, -, hr, rfl, hapart⟩ := eq_of_combine h
  rw [tupleOf?_of_tuples hr] at ht
  have hmem : t ∈ ls ++ rs := List.mem_append_right _ (List.mem_of_find?_eq_some ht)
  have hsame : t.schema.SameRelation q := by simpa using List.find?_some ht
  exact find?_of_mem hapart hmem hsame

end

end Row

/-! ## Terms and predicates on combined rows -/

/-- An attribute has a value on a row that carries a tuple of its relation, with that value. -/
theorem BoundAttribute.value_eq_ok_iff {a : BoundAttribute} {row : Row} {d : Datum} :
    a.value row = .ok d
      ↔ ∃ t, row.tupleOf? a.relation = some t ∧ t.values[a.position]? = some d := by
  unfold value
  cases row.tupleOf? a.relation with
  | none => simp
  | some t => cases hd : t.values[a.position]? <;> simp [hd]

/-- A term's value on a row is its value on all rows that carry the same tuples, and more. -/
theorem Term.value_of_tupleOf? {t : Term} {row row' : Row} {d : Datum}
    (hsub : ∀ q u, row.tupleOf? q = some u → row'.tupleOf? q = some u) (h : t.value row = .ok d) :
    t.value row' = .ok d := by
  cases t with
  | constant d' => exact h
  | attr a =>
    have h : a.value row = .ok d := h
    obtain ⟨u, hu, hd⟩ := BoundAttribute.value_eq_ok_iff.1 h
    exact BoundAttribute.value_eq_ok_iff.2 ⟨u, hsub _ u hu, hd⟩

theorem Predicate.holdsBetween_eq_ok_iff {p : Predicate} {l r : Row} {b : Bool} :
    p.holdsBetween l r = .ok b
      ↔ ∃ x y, p.left.value l = .ok x ∧ p.right.value r = .ok y ∧ decide (x = y) = b := by
  unfold holdsBetween
  cases p.left.value l with
  | error e => simp [bind, Except.bind]
  | ok x =>
    cases p.right.value r with
    | error e => simp [bind, Except.bind]
    | ok y => simp [bind, Except.bind, pure, Except.pure]

/-- What holds between two rows holds between rows that carry the same tuples, and more. -/
theorem Predicate.holdsBetween_of_tupleOf? {p : Predicate} {l l' r r' : Row} {b : Bool}
    (hl : ∀ q u, l.tupleOf? q = some u → l'.tupleOf? q = some u)
    (hr : ∀ q u, r.tupleOf? q = some u → r'.tupleOf? q = some u)
    (h : p.holdsBetween l r = .ok b) : p.holdsBetween l' r' = .ok b := by
  obtain ⟨x, y, hx, hy, hb⟩ := holdsBetween_eq_ok_iff.1 h
  exact holdsBetween_eq_ok_iff.2
    ⟨x, y, Term.value_of_tupleOf? hl hx, Term.value_of_tupleOf? hr hy, hb⟩

/-- Each of the predicates holds on the row. -/
def Row.Meets (row : Row) (tests : List Predicate) : Prop := ∀ p ∈ tests, p.holds row = .ok true

/-- A combined row meets what its parts meet, and the predicate that holds between them. -/
theorem Row.Meets.combine {l r c : Row} {ls rs : List Predicate} {on : Predicate}
    (hl : l.Meets ls) (hr : r.Meets rs) (hon : on.holdsBetween l r = .ok true)
    (hc : l.combine r = .ok c) : c.Meets (on :: (ls ++ rs)) := by
  have hleft : ∀ q u, l.tupleOf? q = some u → c.tupleOf? q = some u :=
    fun q u => tupleOf?_of_combine_left hc
  have hright : ∀ q u, r.tupleOf? q = some u → c.tupleOf? q = some u :=
    fun q u => tupleOf?_of_combine_right hc
  intro p hp
  rcases List.mem_cons.1 hp with rfl | hp
  · exact Predicate.holdsBetween_of_tupleOf? hleft hright hon
  · rcases List.mem_append.1 hp with hp | hp
    · exact Predicate.holdsBetween_of_tupleOf? hleft hleft (hl p hp)
    · exact Predicate.holdsBetween_of_tupleOf? hright hright (hr p hp)

end RelQuery
