/-
  Numbers in big-endian form: bytes are the form of the number they write, and forms of one width
  stand in the order of their numbers.

  Main statements: `Bytes.bigEndian_toNat`, `Bytes.compare_bigEndian` and, for what stands behind
  parts of one width, `Bytes.compare_append`.
-/
import RelQuery.Bytes
import Mathlib.Data.Nat.ModEq

namespace RelQuery.Bytes

/-! ## Bytes and the numbers they write -/

theorem toNat_lt (bytes : Bytes) : toNat bytes < Nat.pow 256 bytes.length := by
  induction bytes with
  | nil => exact Nat.one_pos
  | cons b bytes ih =>
    have hpow : Nat.pow 256 (b :: bytes).length = Nat.pow 256 bytes.length * 256 := rfl
    have hb : b.toNat * Nat.pow 256 bytes.length ≤ 255 * Nat.pow 256 bytes.length :=
      Nat.mul_le_mul_right _ (Nat.le_of_lt_succ b.toNat_lt)
    rw [toNat_cons, hpow]
    omega

/-- Byte strings of one length that write the same number are equal. -/
theorem eq_of_toNat_eq {a b : Bytes} (hlength : a.length = b.length) (h : toNat a = toNat b) :
    a = b := by
  induction a generalizing b with
  | nil => exact (List.length_eq_zero_iff.1 hlength.symm).symm
  | cons x a ih =>
    cases b with
    | nil => cases hlength
    | cons y b =>
      have hlength : a.length = b.length := Nat.succ.inj hlength
      have ha := toNat_lt a
      have hb := toNat_lt b
      rw [toNat_cons, toNat_cons, Nat.add_comm, Nat.add_comm _ (toNat b)] at h
      rw [hlength] at h ha
      have hpos : 0 < Nat.pow 256 b.length := Nat.pow_pos (by decide)
      have hdigit := congrArg (· / Nat.pow 256 b.length) h
      have hrest := congrArg (· % Nat.pow 256 b.length) h
      simp only [Nat.add_mul_div_right _ _ hpos, Nat.div_eq_of_lt ha, Nat.div_eq_of_lt hb,
        Nat.zero_add] at hdigit
      simp only [Nat.add_mul_mod_self_right, Nat.mod_eq_of_lt ha, Nat.mod_eq_of_lt hb] at hrest
      rw [UInt8.toNat_inj.1 hdigit, ih hlength hrest]

/-- The big-endian form of the number that bytes write is these bytes. -/
theorem bigEndian_toNat (bytes : Bytes) : bigEndian bytes.length (toNat bytes) = bytes := by
  refine eq_of_toNat_eq (length_bigEndian _ _) ?_
  rw [toNat_bigEndian, Nat.mod_eq_of_lt (toNat_lt bytes)]

/-! ## Order -/

theorem compare_toNat (a b : UInt8) : compare a b = compare a.toNat b.toNat := by
  simp [compare, compareOfLessAndEq, UInt8.lt_iff_toNat_lt, UInt8.toNat_inj]

/-- Of two numbers with two digits the high digits decide, and the low ones if those are equal. -/
theorem compare_digits {p a b c d : Nat} (hb : b < p) (hd : d < p) :
    compare (b + p * a) (d + p * c) = (compare a c).then (compare b d) := by
  have hless : ∀ {x y}, x < y → p * x + p ≤ p * y := by
    intro x y h
    have hmul := Nat.mul_le_mul_left p (Nat.succ_le_of_lt h)
    rwa [Nat.mul_succ] at hmul
  rcases Nat.lt_trichotomy a c with h | rfl | h
  · have hlt : b + p * a < d + p * c := by
      have := hless h
      omega
    rw [Nat.compare_eq_lt.2 h, Nat.compare_eq_lt.2 hlt]
    rfl
  · rw [Nat.compare_eq_eq.2 rfl, Ordering.eq_then]
    simp [compare, compareOfLessAndEq]
  · have hlt : d + p * c < b + p * a := by
      have := hless h
      omega
    rw [Nat.compare_eq_gt.2 h, Nat.compare_eq_gt.2 hlt]
    rfl

/-- Numbers in big-endian form stand in the order of what is written. -/
theorem compare_bigEndian (width m n : Nat) :
    compare (bigEndian width m) (bigEndian width n)
      = compare (m % Nat.pow 256 width) (n % Nat.pow 256 width) := by
  induction width with
  | zero => simp [bigEndian, Nat.mod_one]
  | succ width ih =>
    have hsplit : ∀ k, k % Nat.pow 256 (width + 1)
        = k % Nat.pow 256 width + Nat.pow 256 width * (k / Nat.pow 256 width % 256) :=
      fun k => Nat.mod_mul
    have hpos : 0 < Nat.pow 256 width := Nat.pow_pos (by decide)
    rw [hsplit m, hsplit n, compare_digits (Nat.mod_lt _ hpos) (Nat.mod_lt _ hpos), ← ih,
      bigEndian, bigEndian, List.compare_eq_compareLex, List.compareLex_cons_cons, compare_toNat,
      UInt8.toNat_ofNat', UInt8.toNat_ofNat']

/-- Parts of one length come first, what stands behind them only if they are equal. -/
theorem compare_append {a b c d : Bytes} (h : a.length = c.length) :
    compare (a ++ b) (c ++ d) = (compare a c).then (compare b d) := by
  induction a generalizing c with
  | nil =>
    obtain rfl : c = [] := List.length_eq_zero_iff.1 h.symm
    rfl
  | cons x a ih =>
    cases c with
    | nil => cases h
    | cons y c =>
      have hrest := ih (Nat.succ.inj h)
      simp only [List.compare_eq_compareLex] at hrest ⊢
      rw [List.cons_append, List.cons_append, List.compareLex_cons_cons,
        List.compareLex_cons_cons, hrest, Ordering.then_assoc]

end RelQuery.Bytes
