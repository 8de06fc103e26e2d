/-
  Combining rows as a partial operation: where it is defined, what it gives, and that grouping has
  no part in either.

  Two rows can be combined exactly if both still know their tuples and no relation has one in both.
  A row may itself be combined of others to any depth; then it lists the tuples of all of them, so
  one look at the tuples on both sides is enough (`Row.combine_eq_ok_iff`). Failures are of one
  kind, but their causes may differ with the grouping: a projected row and a repeated relation are
  met in another order. So associativity is about what is given, as for other partial operations.

  Main statement: `Row.Made.combined_row`.
-/
import RelQuery.Proofs.Row

namespace RelQuery

namespace Row

/-- The rows that come from tuples of relations and from projections by combining them. -/
inductive Made : Row → Prop
  | base (t : Tuple) : Made (.base t)
  | projected (values : List Datum) : Made (.projected values)
  | combined {l r c : Row} (hl : Made l) (hr : Made r) (h : l.combine r = .ok c) : Made c

/-- A row of which only values are left. -/
def IsProjected (row : Row) : Prop := ∃ values, row = .projected values

theorem tuples_eq_ok_iff {row : Row} {ts : List Tuple} :
    row.tuples = .ok ts ↔ ¬ row.IsProjected ∧ ts = row.parts := by
  cases row <;> simp [tuples, parts, IsProjected, eq_comm]

/-- Rows can be combined if neither was projected and no relation has tuples in both, nor several
in one of them. -/
theorem combine_eq_ok_iff {l r c : Row} :
    l.combine r = .ok c
      ↔ ¬ l.IsProjected ∧ ¬ r.IsProjected ∧ Apart (l.parts ++ r.parts) ∧ c = l.beside r := by
  constructor
  · intro h
    obtain ⟨ls, rs, hl, hr, rfl, hapart⟩ := eq_of_combine h
    obtain ⟨hlp, rfl⟩ := tuples_eq_ok_iff.1 hl
    obtain ⟨hrp, rfl⟩ := tuples_eq_ok_iff.1 hr
    exact ⟨hlp, hrp, hapart, rfl⟩
  · rintro ⟨hlp, hrp, hapart, rfl⟩
    have hl : l.tuples = .ok l.parts := tuples_eq_ok_iff.2 ⟨hlp, rfl⟩
    have hr : r.tuples = .ok r.parts := tuples_eq_ok_iff.2 ⟨hrp, rfl⟩
    have he : extend [] (l.parts ++ r.parts) = .ok (l.parts ++ r.parts) := extend_eq_ok hapart
    unfold combine
    rw [hl, hr]
    exact congrArg (Except.map composite) he

/-! ## Failures -/

theorem tuples_failsOnly (row : Row) : FailsOnly (·.kind = .runtime) row.tuples := by
  cases row with
  | base | composite => exact .ok _
  | projected values => exact .error rfl

theorem extend_failsOnly (ts more : List Tuple) :
    FailsOnly (·.kind = .runtime) (extend ts more) := by
  induction more generalizing ts with
  | nil => exact .ok ts
  | cons t more ih =>
    rw [extend]
    split
    · exact .error rfl
    · exact ih _

theorem combine_failsOnly (l r : Row) : FailsOnly (·.kind = .runtime) (l.combine r) :=
  (tuples_failsOnly l).bind fun _ _ => (tuples_failsOnly r).bind fun _ _ =>
    (extend_failsOnly _ _).bind fun _ _ => .ok _

/-! ## Rows that were combined -/

/-- No row that was made has two tuples of one relation. -/
theorem Made.apart {row : Row} (h : row.Made) : Apart row.parts := by
  cases h with
  | base t => simp [Apart, parts]
  | projected values => exact List.nodup_nil
  | combined _ _ h =>
    obtain ⟨-, -, hapart, rfl⟩ := combine_eq_ok_iff.1 h
    exact hapart

theorem apart_append_iff {ls rs : List Tuple} :
    Apart (ls ++ rs)
      ↔ Apart ls ∧ Apart rs ∧ ∀ t ∈ ls, ∀ u ∈ rs, t.schema.name ≠ u.schema.name := by
  unfold Apart
  rw [List.map_append, List.nodup_append]
  simp

/-- A row that was not projected looks a tuple up among its own. -/
theorem tupleOf?_eq_some_iff {row : Row} (h : Apart row.parts) {q : Schema} {t : Tuple} :
    row.tupleOf? q = some t ↔ t ∈ row.parts ∧ t.schema.name = q.name := by
  have hfind : row.tupleOf? q = row.parts.find? fun t => t.schema.SameRelation q := by
    cases row with
    | base u => exact tupleOf?_of_tuples rfl q
    | composite us => rfl
    | projected values => rfl
  rw [hfind]
  constructor
  · intro hsome
    have hsame : t.schema.SameRelation q := by simpa using List.find?_some hsome
    exact ⟨List.mem_of_find?_eq_some hsome, hsame⟩
  · rintro ⟨hmem, hname⟩
    exact find?_of_mem h hmem hname

/-- In a combined row the tuple of a relation is that of the left row, or else that of the right
one. -/
theorem tupleOf?_combine {l r c : Row} (h : l.combine r = .ok c) (q : Schema) :
    c.tupleOf? q = (l.tupleOf? q).or (r.tupleOf? q) := by
  obtain ⟨ls, rs, hl, hr, rfl, -⟩ := eq_of_combine h
  rw [tupleOf?_of_tuples hl, tupleOf?_of_tuples hr]
  exact List.find?_append

/-- The grouping decides neither whether three rows can be combined nor what they give. -/
theorem combine_assoc (a b c d : Row) :
    (a.combine b >>= (·.combine c)) = .ok d ↔ (b.combine c >>= a.combine) = .ok d := by
  have hleft : (a.combine b >>= (·.combine c)) = .ok d
      ↔ ¬ a.IsProjected ∧ ¬ b.IsProjected ∧ ¬ c.IsProjected
        ∧ Apart (a.parts ++ b.parts ++ c.parts)
        ∧ d = .composite (a.parts ++ b.parts ++ c.parts) := by
    simp only [bind_eq_ok_iff, combine_eq_ok_iff]
    constructor
    · rintro ⟨_, ⟨ha, hb, -, rfl⟩, -, hc, hapart, rfl⟩
      exact ⟨ha, hb, hc, hapart, rfl⟩
    · rintro ⟨ha, hb, hc, hapart, rfl⟩
      exact ⟨_, ⟨ha, hb, (apart_append_iff.1 hapart).1, rfl⟩, nofun, hc, hapart, rfl⟩
  have hright : (b.combine c >>= a.combine) = .ok d
      ↔ ¬ a.IsProjected ∧ ¬ b.IsProjected ∧ ¬ c.IsProjected
        ∧ Apart (a.parts ++ (b.parts ++ c.parts))
        ∧ d = .composite (a.parts ++ (b.parts ++ c.parts)) := by
    simp only [bind_eq_ok_iff, combine_eq_ok_iff]
    constructor
    · rintro ⟨_, ⟨hb, hc, -, rfl⟩, ha, -, hapart, rfl⟩
      exact ⟨ha, hb, hc, hapart, rfl⟩
    · rintro ⟨ha, hb, hc, hapart, rfl⟩
      exact ⟨_, ⟨hb, hc, (apart_append_iff.1 hapart).2.1, rfl⟩, ha, nofun, hapart, rfl⟩
  rw [hleft, hright, List.append_assoc]

/-- Rows made of tuples and projections (`Made`) can be combined exactly if neither was projected
and no relation has `parts` in both. The combined row has the `parts` of both, and `tupleOf?` looks
in those of the left row first. A third row may be combined in either grouping. -/
theorem Made.combined_row {l r : Row} (hl : l.Made) (hr : r.Made) :
    ((∃ c, l.combine r = .ok c)
        ↔ ¬ l.IsProjected ∧ ¬ r.IsProjected
          ∧ ∀ t ∈ l.parts, ∀ u ∈ r.parts, t.schema.name ≠ u.schema.name)
      ∧ (∀ e, l.combine r = .error e → e.kind = .runtime)
      ∧ (∀ c, l.combine r = .ok c →
        c = .composite (l.parts ++ r.parts) ∧ Apart (l.parts ++ r.parts)
          ∧ ∀ q, c.tupleOf? q = (l.tupleOf? q).or (r.tupleOf? q)
            ∧ ∀ t, c.tupleOf? q = some t
              ↔ (t ∈ l.parts ∨ t ∈ r.parts) ∧ t.schema.name = q.name)
      ∧ ∀ third c,
        (l.combine r >>= (·.combine third)) = .ok c ↔ (r.combine third >>= l.combine) = .ok c := by
  refine ⟨?_, combine_failsOnly l r, ?_, combine_assoc l r⟩
  · simp only [combine_eq_ok_iff, apart_append_iff]
    constructor
    · rintro ⟨_, hlp, hrp, ⟨-, -, hdisjoint⟩, -⟩
      exact ⟨hlp, hrp, hdisjoint⟩
    · rintro ⟨hlp, hrp, hdisjoint⟩
      exact ⟨_, hlp, hrp, ⟨hl.apart, hr.apart, hdisjoint⟩, rfl⟩
  · intro c h
    obtain ⟨-, -, hapart, rfl⟩ := combine_eq_ok_iff.1 h
    refine ⟨rfl, hapart, fun q => ⟨tupleOf?_combine h q, fun t => ?_⟩⟩
    have hbeside : Apart (l.beside r).parts := hapart
    exact (tupleOf?_eq_some_iff hbeside).trans (and_congr_left' List.mem_append)

/-- A tuple of a relation of one integer. -/
def numbered (relation : String) (n : Int64) : Row := .base ⟨.numbers relation, [.int n], rfl⟩

/-- A row combined of two others takes a third relation, and the tuple of the second is still found
in it; it does not take the second relation again. -/
theorem combined_threeNumbers :
    ∃ ab, (numbered "a" 1).combine (numbered "b" 2) = .ok ab ∧ ab.Made
      ∧ (∃ abc, ab.combine (numbered "c" 3) = .ok abc
        ∧ abc.tupleOf? (.numbers "b") = some ⟨.numbers "b", [.int 2], rfl⟩)
      ∧ (¬ ∃ c, ab.combine (numbered "b" 4) = .ok c)
      ∧ ∀ e, ab.combine (numbered "b" 4) = .error e → e.kind = .runtime := by
  obtain ⟨hdefined, -, -, -⟩ := Made.combined_row (.base ⟨.numbers "a", [.int 1], rfl⟩)
    (.base ⟨.numbers "b", [.int 2], rfl⟩)
  obtain ⟨ab, hab⟩ := hdefined.2 (by simp [IsProjected, parts, Schema.numbers])
  have hmade : ab.Made := .combined (.base _) (.base _) hab
  obtain ⟨-, -, -, rfl⟩ := combine_eq_ok_iff.1 hab
  obtain ⟨hthird, -, hgiven, -⟩ := hmade.combined_row (.base ⟨.numbers "c", [.int 3], rfl⟩)
  obtain ⟨habsent, hkind, -, -⟩ := hmade.combined_row (.base ⟨.numbers "b", [.int 4], rfl⟩)
  obtain ⟨abc, habc⟩ := hthird.2 (by simp [IsProjected, beside, parts, Schema.numbers])
  obtain ⟨-, -, hlookup⟩ := hgiven abc habc
  refine ⟨_, hab, hmade, ⟨abc, habc, ?_⟩, ?_, hkind⟩
  · exact ((hlookup _).2 _).2 ⟨.inl (by simp [beside, parts]), rfl⟩
  · intro h
    exact (habsent.1 h).2.2 _ (List.mem_append_right _ List.mem_cons_self) _
      List.mem_cons_self rfl

end Row

end RelQuery
