/-
  Predicates on the parts of a row and on the whole of it.

  A predicate is tested where its terms can first be read: on the tuples of a scan, or between the
  two rows of a join, perhaps with its sides exchanged. Later operators only see the combined row.
  It says the same there, at any depth, because a row never loses a tuple of its parts
  (`Row.PartOf.tupleOf?`) and never has a second one of the same relation. The converse fails: on
  the combined row a predicate may have a value that it lacks on the parts.

  Main statement: `Predicate.holds_combined`.
-/
import RelQuery.Proofs.JoinTree.Plan
import RelQuery.Proofs.Row.Combine

namespace RelQuery

/-! ## Parts of a row -/

namespace Row

/-- The first row is the second one or went into it, by any number of combinations. -/
inductive PartOf (part : Row) : Row → Prop
  | whole : PartOf part part
  | left {l r c : Row} (h : PartOf part l) (hc : l.combine r = .ok c) : PartOf part c
  | right {l r c : Row} (h : PartOf part r) (hc : l.combine r = .ok c) : PartOf part c

/-- What a part carries, the whole carries. -/
theorem PartOf.tupleOf? {part row : Row} (h : part.PartOf row) {q : Schema} {t : Tuple}
    (ht : part.tupleOf? q = some t) : row.tupleOf? q = some t := by
  induction h with
  | whole => exact ht
  | left _ hc ih => exact tupleOf?_of_combine_left hc ih
  | right _ hc ih => exact tupleOf?_of_combine_right hc ih

end Row

/-! ## Terms -/

namespace Term

/-- A term that has a value on a part has it on the whole. -/
theorem value_of_part {t : Term} {part row : Row} {d : Datum} (h : part.PartOf row)
    (hd : t.value part = .ok d) : t.value row = .ok d :=
  value_of_tupleOf? (fun _ _ hu => h.tupleOf? hu) hd

/-- A term that reads one relation only does the same on a tuple of it and on every row that the
tuple went into, also if it fails: then the tuple has nothing at the position. -/
theorem value_eq_of_part {t : Term} {u : Tuple} {row : Row} (h : (Row.base u).PartOf row)
    (ht : ∀ q, t.relation? = some q → q.SameRelation u.schema) :
    t.value row = t.value (.base u) := by
  cases t with
  | constant d => rfl
  | attr a =>
    have hsame : u.schema.SameRelation a.relation := Eq.symm (ht a.relation rfl)
    have hbase : (Row.base u).tupleOf? a.relation = some u := if_pos hsame
    have hrow : row.tupleOf? a.relation = some u := h.tupleOf? hbase
    show a.value row = a.value (.base u)
    unfold BoundAttribute.value
    rw [hbase, hrow]

end Term

/-! ## Predicates -/

namespace Predicate

variable {p : Predicate}

theorem holdsBetween_swapped_of_holdsBetween {l r : Row} {b : Bool}
    (h : p.holdsBetween l r = .ok b) : p.swapped.holdsBetween r l = .ok b := by
  obtain ⟨x, y, hx, hy, hb⟩ := holdsBetween_eq_ok_iff.1 h
  have hcomm : decide (y = x) = b := by
    rw [← hb]
    exact decide_eq_decide.2 eq_comm
  exact holdsBetween_eq_ok_iff.2 ⟨y, x, hy, hx, hcomm⟩

/-- An equality read from right to left has the same value between the rows exchanged. Which of two
failing operands fails first depends on the side. -/
theorem holdsBetween_swapped {l r : Row} {b : Bool} :
    p.swapped.holdsBetween r l = .ok b ↔ p.holdsBetween l r = .ok b := by
  constructor
  · intro h
    exact holdsBetween_swapped_of_holdsBetween h
  · intro h
    exact holdsBetween_swapped_of_holdsBetween h

/-- A predicate that has a value between two parts of a row has it on the row. -/
theorem holds_of_parts {l r row : Row} (hl : l.PartOf row) (hr : r.PartOf row) {b : Bool}
    (h : p.holdsBetween l r = .ok b) : p.holds row = .ok b :=
  holdsBetween_of_tupleOf? (fun _ _ hu => hl.tupleOf? hu) (fun _ _ hu => hr.tupleOf? hu) h

/-- A predicate of a scan does the same on a tuple of the relation and on every row that the tuple
went into. -/
theorem holds_eq_of_part {u : Tuple} {row : Row} (h : (Row.base u).PartOf row)
    (hp : p.scans u.schema = true) : p.holds row = p.holds (.base u) := by
  have hleft : p.left.value row = p.left.value (.base u) :=
    Term.value_eq_of_part h fun q hq => JoinTree.sameRelation_of_scans hp (.inl hq)
  have hright : p.right.value row = p.right.value (.base u) :=
    Term.value_eq_of_part h fun q hq => JoinTree.sameRelation_of_scans hp (.inr hq)
  unfold holds holdsBetween
  rw [hleft, hright]

/-- What a predicate says between two rows (`holdsBetween`) it says on the combined row, and
`swapped` between the rows exchanged. A term has the same value on the combined row, and a predicate
that `scans` a tuple says the same on every row that the tuple is `PartOf`. -/
theorem holds_combined (p : Predicate) {l r c : Row} (h : l.combine r = .ok c) :
    (∀ b, p.holdsBetween l r = .ok b →
        p.holds c = .ok b ∧ p.swapped.holdsBetween r l = .ok b)
      ∧ (∀ row b, p.holds row = .ok b ↔ p.swapped.holds row = .ok b)
      ∧ (∀ (t : Term) d, t.value l = .ok d ∨ t.value r = .ok d → t.value c = .ok d)
      ∧ ∀ (u : Tuple) row, (Row.base u).PartOf row → p.scans u.schema = true →
        p.holds row = p.holds (.base u) := by
  have hleft : l.PartOf c := .left .whole h
  have hright : r.PartOf c := .right .whole h
  refine ⟨?_, ?_, ?_, ?_⟩
  · intro b hb
    exact ⟨holds_of_parts hleft hright hb, holdsBetween_swapped.2 hb⟩
  · intro row b
    exact holdsBetween_swapped.symm
  · intro t d hd
    rcases hd with hd | hd
    · exact Term.value_of_part hleft hd
    · exact Term.value_of_part hright hd
  · intro u row hpart hp
    exact holds_eq_of_part hpart hp

/-- The numbers of two rows are equal between them, on the row combined of them and the other way
round; what a third row says about its own number, it still says as a part of a part. -/
theorem holds_threeNumbers :
    ∃ bc abc, (Row.numbered "b" 7).combine (Row.numbered "c" 8) = .ok bc
      ∧ (Row.numbered "a" 7).combine bc = .ok abc
      ∧ (mk (.number "a") (.number "b")).holds abc = .ok true
      ∧ (mk (.number "b") (.number "a")).holdsBetween bc (Row.numbered "a" 7) = .ok true
      ∧ (mk (.number "c") (.constant (.int 9))).holds abc = .ok false := by
  have hbc : (Row.numbered "b" 7).combine (Row.numbered "c" 8)
      = .ok ((Row.numbered "b" 7).beside (Row.numbered "c" 8)) := by decide
  have habc : (Row.numbered "a" 7).combine ((Row.numbered "b" 7).beside (Row.numbered "c" 8))
      = .ok ((Row.numbered "a" 7).beside ((Row.numbered "b" 7).beside (Row.numbered "c" 8))) := by
    decide
  have hjoin : (mk (.number "a") (.number "b")).holdsBetween (Row.numbered "a" 7)
      ((Row.numbered "b" 7).beside (Row.numbered "c" 8)) = .ok true := by decide
  have hfilter : (mk (.number "c") (.constant (.int 9))).holds (Row.numbered "c" 8)
      = .ok false := by decide
  obtain ⟨hon, -, -, -⟩ := holds_combined (mk (.number "a") (.number "b")) habc
  obtain ⟨-, -, -, hscan⟩ := holds_combined (mk (.number "c") (.constant (.int 9))) habc
  obtain ⟨hholds, hswapped⟩ := hon true hjoin
  have hpart : (Row.numbered "c" 8).PartOf _ := .right (.right .whole hbc) habc
  exact ⟨_, _, hbc, habc, hholds, hswapped, (hscan _ _ hpart (by decide)).trans hfilter⟩

end Predicate

end RelQuery
