/-
  Sets of characters that are given by ranges of code points.
-/
namespace RelQuery

/-- Ranges of code points with both their ends. -/
abbrev CharRanges := List (Nat × Nat)

/-- Whether a character lies in one of the ranges. -/
def CharRanges.has (ranges : CharRanges) (c : Char) : Bool :=
  ranges.any fun (first, last) => first ≤ c.toNat && c.toNat ≤ last

theorem CharRanges.has_of_mem {ranges : CharRanges} {r : Nat × Nat} {c : Char}
    (hmem : r ∈ ranges) (hfirst : r.1 ≤ c.toNat) (hlast : c.toNat ≤ r.2) :
    ranges.has c :=
  List.any_eq_true.2 ⟨r, hmem, by simp [hfirst, hlast]⟩

end RelQuery
