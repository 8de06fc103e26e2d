/-
  The bytes of a string are read back as the string, and bytes that are read are those of the
  string: what is no UTF-8 is exactly what no string is written as.

  The cases are those of the length of a character's sequence; what a leading byte announces is
  looked up in each.

  Main statements: `decode_encode`, `encode_of_decode` and `encode_injective`.
-/
import RelQuery.Proofs.Except
import RelQuery.Text.Utf8

namespace RelQuery.Utf8

/-! ## Leading bytes -/

theorem shape?_of_one : ∀ n < 128, shape? (UInt8.ofNat n) = some (0, 0, 0) := by decide

theorem shape?_of_two : ∀ n < 32, 2 ≤ n →
    shape? (UInt8.ofNat (n + 0xC0)) = some (1, 0x80, 0xBF) := by decide

theorem shape?_of_three : ∀ n < 16, shape? (UInt8.ofNat (n + 0xE0))
    = some (2, if n = 0 then 0xA0 else 0x80, if n = 13 then 0x9F else 0xBF) := by decide

theorem shape?_of_four : ∀ n < 5, shape? (UInt8.ofNat (n + 0xF0))
    = some (3, if n = 0 then 0x90 else 0x80, if n = 4 then 0x8F else 0xBF) := by decide

/-! ## Continuations -/

theorem payload_ofNat {n : Nat} (h : n < 64) : payload (UInt8.ofNat (n + 0x80)) = n := by
  rw [payload, UInt8.toNat_ofNat']
  omega

theorem isContinuation_ofNat : ∀ n < 64, isContinuation (UInt8.ofNat (n + 0x80)) = true := by
  decide

theorem le_ofNat_iff {low : UInt8} {n : Nat} (h : n < 256) :
    low ≤ UInt8.ofNat n ↔ low.toNat ≤ n := by
  rw [UInt8.le_iff_toNat_le, UInt8.toNat_ofNat', Nat.mod_eq_of_lt h]

theorem ofNat_le_iff {high : UInt8} {n : Nat} (h : n < 256) :
    UInt8.ofNat n ≤ high ↔ n ≤ high.toNat := by
  rw [UInt8.le_iff_toNat_le, UInt8.toNat_ofNat', Nat.mod_eq_of_lt h]

theorem toNat_lead {n low : Nat} (h : n + low < 256) :
    (UInt8.ofNat (n + low)).toNat = n + low := by
  rw [UInt8.toNat_ofNat']
  omega

/-! ## Characters -/

section

variable (index : Nat) {n : Nat} (rest : Bytes)

theorem decodeFrom_one (h : n < 128) : decodeFrom index (UInt8.ofNat n :: rest)
    = (decodeFrom (index + 1) rest).map (Char.ofNat n :: ·) := by
  rw [decodeFrom, shape?_of_one n h]
  have hn : (UInt8.ofNat n).toNat = n := @toNat_lead n 0 (by omega)
  rw [hn]
  rfl

theorem decodeFrom_two (h : 128 ≤ n) (h' : n < 2048) :
    decodeFrom index (UInt8.ofNat (n / 64 % 32 + 0xC0) :: UInt8.ofNat (n % 64 + 0x80) :: rest)
      = (decodeFrom (index + 2) rest).map (Char.ofNat n :: ·) := by
  have hlow : (0x80 : UInt8) ≤ UInt8.ofNat (n % 64 + 0x80) := by
    rw [le_ofNat_iff (by omega)]
    show 0x80 ≤ _
    omega
  have hhigh : UInt8.ofNat (n % 64 + 0x80) ≤ 0xBF := by
    rw [ofNat_le_iff (by omega)]
    show _ ≤ 0xBF
    omega
  have hn : (n / 64 % 32 + 0xC0) % 32 * 64 + n % 64 = n := by omega
  rw [decodeFrom, shape?_of_two _ (by omega) (by omega)]
  simp only [hlow, hhigh, and_self, not_true, if_false, if_true]
  rw [toNat_lead (by omega), payload_ofNat (by omega), hn]
  rfl

theorem decodeFrom_three (h : 2048 ≤ n) (h' : n < 65536) (hs : n < 0xD800 ∨ 0xDFFF < n) :
    decodeFrom index (UInt8.ofNat (n / 4096 % 16 + 0xE0) :: UInt8.ofNat (n / 64 % 64 + 0x80)
        :: UInt8.ofNat (n % 64 + 0x80) :: rest)
      = (decodeFrom (index + 3) rest).map (Char.ofNat n :: ·) := by
  have hlow : (if n / 4096 % 16 = 0 then (0xA0 : UInt8) else 0x80)
      ≤ UInt8.ofNat (n / 64 % 64 + 0x80) := by
    rw [le_ofNat_iff (by omega)]
    split
    · show 0xA0 ≤ _
      omega
    · show 0x80 ≤ _
      omega
  have hhigh : UInt8.ofNat (n / 64 % 64 + 0x80)
      ≤ (if n / 4096 % 16 = 13 then (0x9F : UInt8) else 0xBF) := by
    rw [ofNat_le_iff (by omega)]
    split
    · show _ ≤ 0x9F
      omega
    · show _ ≤ 0xBF
      omega
  have hn : (n / 4096 % 16 + 0xE0) % 16 * 4096 + n / 64 % 64 * 64 + n % 64 = n := by omega
  rw [decodeFrom, shape?_of_three _ (by omega)]
  simp only [hlow, hhigh, and_self, not_true, if_false, isContinuation_ofNat (n % 64) (by omega),
    Nat.reduceEqDiff, if_true]
  rw [toNat_lead (by omega), payload_ofNat (by omega), payload_ofNat (by omega), hn]
  rfl

theorem decodeFrom_four (h : 65536 ≤ n) (h' : n < 0x110000) :
    decodeFrom index (UInt8.ofNat (n / 262144 % 8 + 0xF0) :: UInt8.ofNat (n / 4096 % 64 + 0x80)
        :: UInt8.ofNat (n / 64 % 64 + 0x80) :: UInt8.ofNat (n % 64 + 0x80) :: rest)
      = (decodeFrom (index + 4) rest).map (Char.ofNat n :: ·) := by
  have hlow : (if n / 262144 % 8 = 0 then (0x90 : UInt8) else 0x80)
      ≤ UInt8.ofNat (n / 4096 % 64 + 0x80) := by
    rw [le_ofNat_iff (by omega)]
    split
    · show 0x90 ≤ _
      omega
    · show 0x80 ≤ _
      omega
  have hhigh : UInt8.ofNat (n / 4096 % 64 + 0x80)
      ≤ (if n / 262144 % 8 = 4 then (0x8F : UInt8) else 0xBF) := by
    rw [ofNat_le_iff (by omega)]
    split
    · show _ ≤ 0x8F
      omega
    · show _ ≤ 0xBF
      omega
  have hn : (n / 262144 % 8 + 0xF0) % 8 * 262144 + n / 4096 % 64 * 4096 + n / 64 % 64 * 64
      + n % 64 = n := by omega
  rw [decodeFrom, shape?_of_four _ (by omega)]
  simp only [hlow, hhigh, and_self, not_true, if_false, Nat.reduceEqDiff,
    isContinuation_ofNat (n / 64 % 64) (by omega), isContinuation_ofNat (n % 64) (by omega)]
  rw [toNat_lead (by omega), payload_ofNat (by omega), payload_ofNat (by omega),
    payload_ofNat (by omega), hn]
  rfl

end

/-- The character of a sequence is read, and then what follows it. -/
theorem decodeFrom_append (index : Nat) (c : Char) (rest : Bytes) :
    ∃ next, decodeFrom index (String.utf8EncodeChar c ++ rest)
      = (decodeFrom next rest).map (c :: ·) := by
  have hvalid : c.toNat < 0xD800 ∨ 0xDFFF < c.toNat ∧ c.toNat < 0x110000 := c.valid
  have hc : Char.ofNat c.toNat = c := Char.ofNat_toNat c
  have hv : c.val.toNat = c.toNat := rfl
  unfold String.utf8EncodeChar
  rw [hv]
  generalize c.toNat = n at hvalid hc
  subst hc
  dsimp only
  split
  · exact ⟨_, decodeFrom_one index rest (by omega)⟩
  · split
    · exact ⟨_, decodeFrom_two index rest (by omega) (by omega)⟩
    · split
      · exact ⟨_, decodeFrom_three index rest (by omega) (by omega) (by omega)⟩
      · exact ⟨_, decodeFrom_four index rest (by omega) (by omega)⟩

theorem decodeFrom_flatMap (index : Nat) (cs : List Char) :
    decodeFrom index (cs.flatMap String.utf8EncodeChar) = .ok cs := by
  induction cs generalizing index with
  | nil => rw [List.flatMap_nil, decodeFrom]
  | cons c cs ih =>
    obtain ⟨next, hnext⟩ := decodeFrom_append index c (cs.flatMap String.utf8EncodeChar)
    rw [List.flatMap_cons, hnext, ih]
    rfl

/-- The bytes of a string spell it. -/
theorem decode_encode (s : String) : decode (encode s) = .ok s := by
  rw [decode, encode, decodeFrom_flatMap]
  show Except.ok (String.ofList s.toList) = _
  rw [String.ofList_toList]

/-- Different strings have different bytes. -/
theorem encode_injective {s t : String} (h : encode s = encode t) : s = t := by
  have hdecode : decode (encode s) = decode (encode t) := congrArg decode h
  rw [decode_encode, decode_encode] at hdecode
  exact Except.ok.inj hdecode

/-! ## What is read

A sequence that the leading byte and the ranges allow is the one of the character it gives.
-/

theorem val_toNat_ofNat {n : Nat} (h : n.isValidChar) : (Char.ofNat n).val.toNat = n := by
  rw [Char.ofNat, dif_pos h]
  rfl

theorem ofNat_eq {b : UInt8} {n : Nat} (h : b.toNat = n) : UInt8.ofNat n = b := by
  rw [← h, UInt8.ofNat_toNat]

theorem encodeChar_one {b : UInt8} (h : b.toNat < 128) :
    String.utf8EncodeChar (Char.ofNat b.toNat) = [b] := by
  have hv := val_toNat_ofNat (n := b.toNat) (.inl (by omega))
  unfold String.utf8EncodeChar
  rw [hv]
  dsimp only
  rw [if_pos (by omega), UInt8.ofNat_toNat]

theorem encodeChar_two {b₀ b₁ : UInt8} (h₀ : 0xC2 ≤ b₀.toNat ∧ b₀.toNat ≤ 0xDF)
    (h₁ : 0x80 ≤ b₁.toNat ∧ b₁.toNat ≤ 0xBF) :
    String.utf8EncodeChar (Char.ofNat (b₀.toNat % 32 * 64 + payload b₁)) = [b₀, b₁] := by
  unfold payload
  have hv := val_toNat_ofNat (n := b₀.toNat % 32 * 64 + b₁.toNat % 64) (.inl (by omega))
  unfold String.utf8EncodeChar
  rw [hv]
  dsimp only
  rw [if_neg (by omega), if_pos (by omega), ofNat_eq (b := b₀) (by omega),
    ofNat_eq (b := b₁) (by omega)]

theorem encodeChar_three {b₀ b₁ b₂ : UInt8} (h₀ : 0xE0 ≤ b₀.toNat ∧ b₀.toNat ≤ 0xEF)
    (h₁ : 0x80 ≤ b₁.toNat ∧ b₁.toNat ≤ 0xBF) (h₂ : 0x80 ≤ b₂.toNat ∧ b₂.toNat ≤ 0xBF)
    (hlong : b₀.toNat = 0xE0 → 0xA0 ≤ b₁.toNat) (hplain : b₀.toNat = 0xED → b₁.toNat ≤ 0x9F) :
    String.utf8EncodeChar
      (Char.ofNat (b₀.toNat % 16 * 4096 + payload b₁ * 64 + payload b₂)) = [b₀, b₁, b₂] := by
  unfold payload
  have hv := val_toNat_ofNat (n := b₀.toNat % 16 * 4096 + b₁.toNat % 64 * 64 + b₂.toNat % 64)
    (by unfold Nat.isValidChar; omega)
  unfold String.utf8EncodeChar
  rw [hv]
  dsimp only
  rw [if_neg (by omega), if_neg (by omega), if_pos (by omega), ofNat_eq (b := b₀) (by omega),
    ofNat_eq (b := b₁) (by omega), ofNat_eq (b := b₂) (by omega)]

theorem encodeChar_four {b₀ b₁ b₂ b₃ : UInt8} (h₀ : 0xF0 ≤ b₀.toNat ∧ b₀.toNat ≤ 0xF4)
    (h₁ : 0x80 ≤ b₁.toNat ∧ b₁.toNat ≤ 0xBF) (h₂ : 0x80 ≤ b₂.toNat ∧ b₂.toNat ≤ 0xBF)
    (h₃ : 0x80 ≤ b₃.toNat ∧ b₃.toNat ≤ 0xBF)
    (hlong : b₀.toNat = 0xF0 → 0x90 ≤ b₁.toNat) (hlast : b₀.toNat = 0xF4 → b₁.toNat ≤ 0x8F) :
    String.utf8EncodeChar (Char.ofNat (b₀.toNat % 8 * 262144 + payload b₁ * 4096
      + payload b₂ * 64 + payload b₃)) = [b₀, b₁, b₂, b₃] := by
  unfold payload
  have hv := val_toNat_ofNat (n := b₀.toNat % 8 * 262144 + b₁.toNat % 64 * 4096
      + b₂.toNat % 64 * 64 + b₃.toNat % 64) (by unfold Nat.isValidChar; omega)
  unfold String.utf8EncodeChar
  rw [hv]
  dsimp only
  rw [if_neg (by omega), if_neg (by omega), if_neg (by omega), ofNat_eq (b := b₀) (by omega),
    ofNat_eq (b := b₁) (by omega), ofNat_eq (b := b₂) (by omega), ofNat_eq (b := b₃) (by omega)]

theorem toNat_lt_of_shape? {b low high : UInt8} (h : shape? b = some (0, low, high)) :
    b.toNat < 128 := by
  unfold shape? at h
  split at h
  · exact UInt8.lt_iff_toNat_lt.1 ‹_›
  · repeat' split at h
    all_goals cases h

/-- The ranges of the first two bytes of a sequence of two. -/
theorem ranges_of_two {b₀ b₁ low high : UInt8} (h : shape? b₀ = some (1, low, high))
    (h₁ : low ≤ b₁ ∧ b₁ ≤ high) : (0xC2 ≤ b₀.toNat ∧ b₀.toNat ≤ 0xDF)
      ∧ (0x80 ≤ b₁.toNat ∧ b₁.toNat ≤ 0xBF) := by
  unfold shape? at h
  repeat' split at h
  all_goals cases h
  simp only [UInt8.le_iff_toNat_le] at *
  exact ⟨‹_›, h₁⟩

theorem ranges_of_three {b₀ b₁ low high : UInt8} (h : shape? b₀ = some (2, low, high))
    (h₁ : low ≤ b₁ ∧ b₁ ≤ high) : (0xE0 ≤ b₀.toNat ∧ b₀.toNat ≤ 0xEF)
      ∧ (0x80 ≤ b₁.toNat ∧ b₁.toNat ≤ 0xBF) ∧ (b₀.toNat = 0xE0 → 0xA0 ≤ b₁.toNat)
      ∧ (b₀.toNat = 0xED → b₁.toNat ≤ 0x9F) := by
  unfold shape? at h
  repeat' split at h
  all_goals cases h
  all_goals
    simp only [UInt8.le_iff_toNat_le, UInt8.lt_iff_toNat_lt, ← UInt8.toNat_inj,
      UInt8.reduceToNat] at *
    omega

theorem ranges_of_four {b₀ b₁ low high : UInt8} {n : Nat} (h : shape? b₀ = some (n + 1, low, high))
    (h₀ : n ≠ 0) (h₁ : n ≠ 1) (h₂ : low ≤ b₁ ∧ b₁ ≤ high) :
    (0xF0 ≤ b₀.toNat ∧ b₀.toNat ≤ 0xF4)
      ∧ (0x80 ≤ b₁.toNat ∧ b₁.toNat ≤ 0xBF) ∧ (b₀.toNat = 0xF0 → 0x90 ≤ b₁.toNat)
      ∧ (b₀.toNat = 0xF4 → b₁.toNat ≤ 0x8F) := by
  unfold shape? at h
  repeat' split at h
  all_goals cases h
  all_goals
    simp only [UInt8.le_iff_toNat_le, UInt8.lt_iff_toNat_lt, ← UInt8.toNat_inj,
      UInt8.reduceToNat] at *
    omega

theorem range_of_isContinuation {b : UInt8} (h : isContinuation b = true) :
    0x80 ≤ b.toNat ∧ b.toNat ≤ 0xBF := by
  unfold isContinuation at h
  rw [decide_eq_true_eq, UInt8.le_iff_toNat_le, UInt8.le_iff_toNat_le] at h
  exact h

/-- Bytes that are read are those of what they spell. -/
theorem flatMap_of_decodeFrom {index : Nat} {bytes : Bytes} {cs : List Char}
    (h : decodeFrom index bytes = .ok cs) : cs.flatMap String.utf8EncodeChar = bytes := by
  fun_induction decodeFrom index bytes generalizing cs with
  | case1 => cases h; rfl
  | case2 | case4 | case5 | case7 | case8 | case10 | case11 => cases h
  | case3 index b₀ rest _ _ hshape ih =>
    obtain ⟨ds, hds, h⟩ := exists_of_bind_eq_ok h
    cases h
    rw [List.flatMap_cons, ih hds, encodeChar_one (toNat_lt_of_shape? hshape)]
    rfl
  | case6 index b₀ low high b₁ rest h₁ hshape ih =>
    obtain ⟨ds, hds, h⟩ := exists_of_bind_eq_ok h
    cases h
    obtain ⟨r₀, r₁⟩ := ranges_of_two hshape (Decidable.not_not.1 h₁)
    rw [List.flatMap_cons, ih hds, encodeChar_two r₀ r₁]
    rfl
  | case9 index b₀ low high b₁ h₁ b₂ rest h₂ hshape _ ih =>
    obtain ⟨ds, hds, h⟩ := exists_of_bind_eq_ok h
    cases h
    obtain ⟨r₀, r₁, hlong, hplain⟩ := ranges_of_three hshape (Decidable.not_not.1 h₁)
    have r₂ := range_of_isContinuation (Decidable.not_not.1 h₂)
    rw [List.flatMap_cons, ih hds, encodeChar_three r₀ r₁ r₂ hlong hplain]
    rfl
  | case12 index b₀ n low high hshape b₁ h₁ hn₀ b₂ h₂ hn₁ b₃ rest h₃ ih =>
    obtain ⟨ds, hds, h⟩ := exists_of_bind_eq_ok h
    cases h
    obtain ⟨r₀, r₁, hlong, hlast⟩ := ranges_of_four hshape hn₀ hn₁ (Decidable.not_not.1 h₁)
    have r₂ := range_of_isContinuation (Decidable.not_not.1 h₂)
    have r₃ := range_of_isContinuation (Decidable.not_not.1 h₃)
    rw [List.flatMap_cons, ih hds, encodeChar_four r₀ r₁ r₂ r₃ hlong hlast]
    rfl

/-- A string spelled by bytes has these bytes. -/
theorem encode_of_decode {bytes : Bytes} {s : String} (h : decode bytes = .ok s) :
    encode s = bytes := by
  unfold decode at h
  cases hcs : decodeFrom 0 bytes with
  | error e => rw [hcs] at h; cases h
  | ok cs =>
    rw [hcs] at h
    cases h
    rw [encode, String.toList_ofList]
    exact flatMap_of_decodeFrom hcs

theorem encode_append (s t : String) : encode (s ++ t) = encode s ++ encode t := by
  rw [encode, String.toList_append, List.flatMap_append]
  rfl

end RelQuery.Utf8
