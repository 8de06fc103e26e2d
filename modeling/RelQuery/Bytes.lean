/-
  Byte strings and the big-endian form of natural numbers.
-/
namespace RelQuery

/-- Keys and records are byte strings; keys are ordered byte by byte, a prefix first. -/
abbrev Bytes := List UInt8

namespace Bytes

/-- The low `width` bytes of `n`, most significant first. -/
def bigEndian : (width : Nat) → (n : Nat) → Bytes
  | 0, _ => []
  | width + 1, n => UInt8.ofNat (n / Nat.pow 256 width) :: bigEndian width n

/-- The number written by `bytes`, most significant byte first. -/
def toNat (bytes : Bytes) : Nat := bytes.foldl (fun n b => 256 * n + b.toNat) 0

@[simp] theorem length_bigEndian (width n : Nat) : (bigEndian width n).length = width := by
  induction width with
  | zero => rfl
  | succ width ih => simp [bigEndian, ih]

theorem foldl_toNat (bytes : Bytes) (n : Nat) :
    bytes.foldl (fun n b => 256 * n + b.toNat) n = n * Nat.pow 256 bytes.length + toNat bytes := by
  induction bytes generalizing n with
  | nil => exact (Nat.mul_one n).symm
  | cons b bytes ih =>
    simp only [List.foldl_cons, List.length_cons, toNat]
    have hpow : Nat.pow 256 (bytes.length + 1) = Nat.pow 256 bytes.length * 256 := rfl
    rw [ih, ih (256 * 0 + b.toNat), hpow]
    generalize Nat.pow 256 bytes.length = p
    generalize toNat bytes = m
    rw [Nat.mul_zero, Nat.zero_add, Nat.add_mul, Nat.mul_comm 256 n, Nat.mul_comm p 256,
      Nat.mul_assoc]
    omega

@[simp] theorem toNat_nil : toNat [] = 0 := rfl

theorem toNat_cons (b : UInt8) (bytes : Bytes) :
    toNat (b :: bytes) = b.toNat * Nat.pow 256 bytes.length + toNat bytes := by
  have hstart : 256 * 0 + b.toNat = b.toNat := Nat.zero_add _
  rw [toNat, List.foldl_cons, hstart, foldl_toNat]

/-- Reading back the low bytes of a number gives it modulo the range of that width. -/
theorem toNat_bigEndian (width n : Nat) :
    toNat (bigEndian width n) = n % Nat.pow 256 width := by
  induction width with
  | zero => exact (Nat.mod_one n).symm
  | succ width ih =>
    have split : n % Nat.pow 256 (width + 1)
        = n % Nat.pow 256 width + Nat.pow 256 width * (n / Nat.pow 256 width % 256) :=
      Nat.mod_mul
    rw [bigEndian, toNat_cons, ih, length_bigEndian, UInt8.toNat_ofNat', split,
      Nat.mul_comm (Nat.pow 256 width), Nat.add_comm]

end Bytes

end RelQuery
