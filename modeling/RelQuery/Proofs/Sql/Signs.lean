/-
  Integers with signs: minus signs and parentheses around a numeral, in any number and order.

  A numeral has no sign of its own, so what is read in the middle lies between zero and the greatest
  integer, and each sign turns it to the opposite. The least integer is the only one whose opposite
  is out of range. It is never read: all integers that expressions give lie above it, and the
  opposite of one of these is again one (`Expr.Denotes.lt_toInt`).

  Main statement: `Expr.datum_signed`.
-/
import RelQuery.Proofs.Sql.Conditions
import Mathlib.Data.Nat.ModEq

namespace RelQuery.Sql

/-- The expression is another one within so many minus signs and any number of parentheses. -/
inductive Expr.Signed (inner : Expr) : Nat → Expr → Prop
  | bare : Signed inner 0 inner
  | nested {k : Nat} {e : Expr} (h : Signed inner k e) : Signed inner k (.nested e)
  | minus {k : Nat} {e : Expr} (h : Signed inner k e) : Signed inner (k + 1) (.unary .minus e)

/-- A row of decimal digits, at least one, without a sign. -/
def IsNumeral (digits : String) : Prop :=
  digits.toList ≠ [] ∧ ∀ c ∈ digits.toList, c.isDigit = true

-- Not found from the quantifier, as that may be decided by trying all characters.
instance : DecidablePred IsNumeral := fun digits =>
  decidable_of_iff (digits.toList ≠ [] ∧ digits.toList.all (·.isDigit)) (by simp [IsNumeral])

/-! ## Opposites -/

theorem maxInteger_eq : maxInteger = 2 ^ 63 - 1 := rfl

/-- What lies above the least integer has its opposite in range. -/
theorem toInt_neg_of_lt {v : Int64} (h : -2 ^ 63 < v.toInt) : (-v).toInt = -v.toInt := by
  have hmax := v.toInt_lt
  have hneg : (Int64.ofInt (-v.toInt)).toInt = -v.toInt :=
    Int64.toInt_ofInt_of_le (by omega) (by omega)
  rwa [Int64.ofInt_neg, Int64.ofInt_toInt] at hneg

theorem toInt_ofInt_decimal {n : Nat} (h : n ≤ maxInteger) : (Int64.ofInt n).toInt = n := by
  rw [maxInteger_eq] at h
  exact Int64.toInt_ofInt_of_le (by omega) (by omega)

/-- Every integer that an expression denotes lies above the least one. -/
theorem Expr.Denotes.lt_toInt {e : Expr} {d : Datum} (h : e.Denotes d) :
    ∀ v, d = .int v → -2 ^ 63 < v.toInt := by
  induction h with
  | literal h =>
    intro v hv
    cases h with
    | @number digits _ _ _ hrange =>
      cases hv
      rw [toInt_ofInt_decimal hrange]
      omega
    | string => cases hv
  | nested _ ih => exact ih
  | @minus e v _ ih =>
    intro w hw
    cases hw
    have hv := ih v rfl
    have hmax := v.toInt_lt
    rw [toInt_neg_of_lt hv]
    omega

/-! ## Values within signs -/

namespace Expr.Signed

variable {inner e : Expr} {k : Nat}

/-- An integer within signs is read, as its opposite if the signs are odd in number. -/
theorem datum_of_int (h : Signed inner k e) {v : Int64} (hv : inner.datum = .ok (.int v)) :
    ∃ w, e.datum = .ok (.int w) ∧ w.toInt = (-1) ^ k * v.toInt := by
  induction h with
  | bare =>
    exact ⟨v, hv, by simp⟩
  | nested _ ih => exact ih
  | @minus k e _ ih =>
    obtain ⟨w, hw, hint⟩ := ih
    have hlow := (Expr.datum_eq_ok_iff.1 hw).lt_toInt w rfl
    refine ⟨-w, ?_, ?_⟩
    · rw [Expr.datum, hw]
      rfl
    · rw [toInt_neg_of_lt hlow, hint, Int.pow_succ, Int.mul_neg_one, Int.neg_mul]

/-- What cannot be read cannot be read within signs. -/
theorem datum_of_error (h : Signed inner k e) {x : Error} (hx : inner.datum = .error x) :
    e.datum = .error x := by
  induction h with
  | bare => exact hx
  | nested _ ih => exact ih
  | minus _ ih =>
    rw [Expr.datum, ih]
    rfl

/-- A string within parentheses is read, within signs it is not. -/
theorem datum_of_string (h : Signed inner k e) {s : String} (hs : inner.datum = .ok (.string s)) :
    e.datum = if k = 0 then .ok (.string s) else .error (.unsupported "negated string") := by
  induction h with
  | bare => exact hs
  | nested _ ih => exact ih
  | @minus k e _ ih =>
    rw [Expr.datum, ih, if_neg (Nat.succ_ne_zero k)]
    split <;> rfl

end Expr.Signed

/-! ## Numerals -/

theorem Literal.datum_of_isNumeral {digits : String} (h : IsNumeral digits) (long : Bool)
    (hrange : decimal digits.toList ≤ 2 ^ 63 - 1) :
    (number digits long).datum = .ok (.int (Int64.ofInt (decimal digits.toList))) :=
  Literal.datum_eq_ok_iff.2 (.number h.1 h.2 hrange)

/-- A numeral out of range is refused. -/
theorem Literal.datum_of_lt (digits : String) (long : Bool)
    (hrange : 2 ^ 63 - 1 < decimal digits.toList) :
    ∃ x, (number digits long).datum = .error x ∧ Misread x := by
  cases hd : (number digits long).datum with
  | error x => exact ⟨x, rfl, Literal.datum_failsOnly _ x hd⟩
  | ok d =>
    cases Literal.datum_eq_ok_iff.1 hd with
    | number _ _ hle =>
      rw [maxInteger_eq] at hle
      omega

/-- Under `k` minus signs and any parentheses (`Signed`) a numeral is read as `(-1) ^ k` times its
number if that is at most `2 ^ 63 - 1`, and refused otherwise; a string is read without signs only.
No expression is read as `Int64.minValue`, so a sign is always in range. -/
theorem Expr.datum_signed {inner e : Expr} {k : Nat} (h : Expr.Signed inner k e) :
    (∀ digits long, inner = .literal (.number digits long) → IsNumeral digits →
      (decimal digits.toList ≤ 2 ^ 63 - 1 →
        ∃ v, e.datum = .ok (.int v) ∧ v.toInt = (-1) ^ k * decimal digits.toList)
      ∧ (2 ^ 63 - 1 < decimal digits.toList → ∃ x, e.datum = .error x ∧ x.kind = .parse))
    ∧ (∀ s, inner = .literal (.string s) →
      (k = 0 → e.datum = .ok (.string s))
      ∧ (1 ≤ k → ∃ x, e.datum = .error x ∧ x.kind = .parse))
    ∧ ∀ f v, Expr.datum f = .ok (.int v) → v ≠ Int64.minValue ∧ (-v).toInt = -v.toInt := by
  refine ⟨?_, ?_, ?_⟩
  · rintro digits long rfl hnumeral
    constructor
    · intro hrange
      obtain ⟨v, hv, hint⟩ := h.datum_of_int (Literal.datum_of_isNumeral hnumeral long hrange)
      rw [toInt_ofInt_decimal hrange] at hint
      exact ⟨v, hv, hint⟩
    · intro hrange
      obtain ⟨x, hx, hkind⟩ := Literal.datum_of_lt digits long hrange
      exact ⟨x, h.datum_of_error hx, hkind⟩
  · rintro s rfl
    have hread := h.datum_of_string (s := s) rfl
    constructor
    · intro hk
      rw [hread, if_pos hk]
    · intro hk
      have hne : k ≠ 0 := by omega
      rw [hread, if_neg hne]
      exact ⟨_, rfl, rfl⟩
  · intro f v hv
    have hlow := (Expr.datum_eq_ok_iff.1 hv).lt_toInt v rfl
    refine ⟨?_, toInt_neg_of_lt hlow⟩
    rintro rfl
    rw [Int64.toInt_minValue] at hlow
    omega

/-- `-(- -n)`. -/
def thriceNegated (digits : String) : Expr :=
  .unary .minus (.nested (.unary .minus (.unary .minus (.literal (.number digits false)))))

theorem thriceNegated_signed (digits : String) :
    Expr.Signed (.literal (.number digits false)) 3 (thriceNegated digits) :=
  .minus (.nested (.minus (.minus .bare)))

/-- The greatest integer can be negated three times. The number behind it cannot be written, though
its opposite is an integer. -/
theorem Expr.datum_thriceNegated :
    (∃ v, (thriceNegated "9223372036854775807").datum = .ok (.int v)
      ∧ v.toInt = -9223372036854775807)
    ∧ ∃ x, (thriceNegated "9223372036854775808").datum = .error x ∧ x.kind = .parse := by
  have hgreatest : IsNumeral "9223372036854775807" := by decide +kernel
  have hbehind : IsNumeral "9223372036854775808" := by decide +kernel
  have hvalue : decimal "9223372036854775807".toList = 9223372036854775807 := by decide +kernel
  obtain ⟨hread, -⟩ := (Expr.datum_signed (thriceNegated_signed _)).1 _ _ rfl hgreatest
  obtain ⟨-, hrefused⟩ := (Expr.datum_signed (thriceNegated_signed _)).1 _ _ rfl hbehind
  obtain ⟨v, hv, hint⟩ := hread (by decide +kernel)
  refine ⟨⟨v, hv, ?_⟩, hrefused (by decide +kernel)⟩
  rw [hint, hvalue]
  rfl

end RelQuery.Sql
