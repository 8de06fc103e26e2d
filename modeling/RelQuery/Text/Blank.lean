/-
  White space, in the sense of the Unicode property of that name, and what is cut by it.
-/
namespace RelQuery.Blank

/-- The characters with the property White_Space. -/
def isBlank (c : Char) : Bool :=
  let n := c.toNat
  (9 ≤ n && n ≤ 13) || n == 0x20 || n == 0x85 || n == 0xA0 || n == 0x1680
    || (0x2000 ≤ n && n ≤ 0x200A) || n == 0x2028 || n == 0x2029 || n == 0x202F
    || n == 0x205F || n == 0x3000

theorem isBlank_of_isWhitespace {c : Char} (h : c.isWhitespace) : isBlank c := by
  simp only [Char.isWhitespace, Bool.or_eq_true, decide_eq_true_eq] at h
  rcases h with ((rfl | rfl) | rfl) | rfl <;> decide

/-- `cs` without white space at both ends. -/
def trim (cs : List Char) : List Char :=
  ((cs.dropWhile isBlank).reverse.dropWhile isBlank).reverse

/-- The lines of a text: cut at each line feed, which ends a line rather than separating two,
and without the carriage return in front of it. -/
def lines : List Char → List (List Char) :=
  go []
where
  go (line : List Char) : List Char → List (List Char)
    | [] => if line.isEmpty then [] else [line.reverse]
    | c :: cs =>
      if c = '\n' then
        (if line.head? = some '\r' then line.tail else line).reverse :: go [] cs
      else go (c :: line) cs

end RelQuery.Blank
