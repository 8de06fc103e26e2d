/-
  UTF-8: the bytes of a string, and strict reading that says where and how bytes fail.

  Reading takes shortest forms only, refuses surrogates and anything above U+10FFFF, and
  blames the longest prefix of the sequence that could still have become a character.
-/
import RelQuery.Bytes

namespace RelQuery.Utf8

/-- The bytes of a string. -/
def encode (s : String) : Bytes := s.toList.flatMap String.utf8EncodeChar

/-- Why bytes are no UTF-8. -/
inductive Fault where
  /-- `length` bytes from `index` on begin no character. -/
  | invalid (length index : Nat)
  /-- The bytes end inside the sequence that starts at `index`. -/
  | incomplete (index : Nat)
  deriving DecidableEq, Repr

/-- How many bytes follow a leading byte, and the range its second byte must lie in. -/
def shape? (lead : UInt8) : Option (Nat × UInt8 × UInt8) :=
  if lead < 0x80 then some (0, 0, 0)
  else if 0xC2 ≤ lead ∧ lead ≤ 0xDF then some (1, 0x80, 0xBF)
  else if lead = 0xE0 then some (2, 0xA0, 0xBF)
  else if lead = 0xED then some (2, 0x80, 0x9F)
  else if 0xE1 ≤ lead ∧ lead ≤ 0xEF then some (2, 0x80, 0xBF)
  else if lead = 0xF0 then some (3, 0x90, 0xBF)
  else if 0xF1 ≤ lead ∧ lead ≤ 0xF3 then some (3, 0x80, 0xBF)
  else if lead = 0xF4 then some (3, 0x80, 0x8F)
  else none

/-- A byte `10xxxxxx`. -/
def isContinuation (b : UInt8) : Bool := 0x80 ≤ b ∧ b ≤ 0xBF

/-- The six bits a continuation byte carries. -/
def payload (b : UInt8) : Nat := b.toNat % 64

/-- Reads all of `bytes`, whose first byte stands at `index`. -/
def decodeFrom (index : Nat) : Bytes → Except Fault (List Char)
  | [] => .ok []
  | b₀ :: rest =>
    match shape? b₀ with
    | none => .error (.invalid 1 index)
    | some (0, _, _) => do
      let cs ← decodeFrom (index + 1) rest
      return Char.ofNat b₀.toNat :: cs
    | some (n + 1, low, high) =>
      match rest with
      | [] => .error (.incomplete index)
      | b₁ :: rest =>
        if ¬ (low ≤ b₁ ∧ b₁ ≤ high) then .error (.invalid 1 index)
        else if n = 0 then do
          let cs ← decodeFrom (index + 2) rest
          return Char.ofNat (b₀.toNat % 32 * 64 + payload b₁) :: cs
        else match rest with
          | [] => .error (.incomplete index)
          | b₂ :: rest =>
            if ¬ isContinuation b₂ then .error (.invalid 2 index)
            else if n = 1 then do
              let cs ← decodeFrom (index + 3) rest
              return Char.ofNat (b₀.toNat % 16 * 4096 + payload b₁ * 64 + payload b₂) :: cs
            else match rest with
              | [] => .error (.incomplete index)
              | b₃ :: rest =>
                if ¬ isContinuation b₃ then .error (.invalid 3 index)
                else do
                  let cs ← decodeFrom (index + 4) rest
                  return Char.ofNat (b₀.toNat % 8 * 262144 + payload b₁ * 4096
                    + payload b₂ * 64 + payload b₃) :: cs

/-- The string that `bytes` spell. -/
def decode (bytes : Bytes) : Except Fault String :=
  (decodeFrom 0 bytes).map String.ofList

end RelQuery.Utf8
