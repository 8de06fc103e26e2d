/-
  From SQL text to tokens.

  White space and comments are tokens too, as data may stand between them. Block comments nest,
  names start with an ASCII letter or an underscore, and any other character is a symbol of its
  own. A text with an unclosed string, name or comment has no tokens at all.
-/
import RelQuery.Sql.SyntaxError
import RelQuery.Text.Alphabetic
import RelQuery.Text.Blank
import RelQuery.Text.Numeric

namespace RelQuery.Sql.Lexer

/-! ## Characters -/

def isNameStart (c : Char) : Bool := c.isAlpha || c = '_'

def isNamePart (c : Char) : Bool := c.isAlphanum || c = '_' || c = '$'

def isHexDigit (c : Char) : Bool :=
  c.isDigit || ('a' ≤ c && c ≤ 'f') || ('A' ≤ c && c ≤ 'F')

/-- The longest start of a text with a property, and the rest. -/
def span (p : Char → Bool) (cs : List Char) : List Char × List Char :=
  (cs.takeWhile p, cs.dropWhile p)

/-! ## Faults -/

/-- What is wrong with a text, and the text from that place on. -/
structure Fault where
  reason : String
  rest : List Char
  deriving DecidableEq, Repr

/-- What was read up to its end; without an end, a fault. -/
def closed {α : Type} (reason : String) (place : List Char) : Option α → Except Fault α
  | some a => .ok a
  | none => .error ⟨reason, place⟩

/-! ## Comments -/

/-- The rest of a line with its end. -/
def restOfLine (cs : List Char) : List Char × List Char :=
  let (line, rest) := span (· ≠ '\n') cs
  (line ++ rest.take 1, rest.drop 1)

/-- The rest of a block comment that is open `depth` times over, given the character read
last. -/
def restOfBlock (depth : Nat) (last : Char) : List Char → Option (List Char × List Char)
  | [] => none
  | c :: cs =>
    if last = '*' && c = '/' && depth = 1 then some ([c], cs)
    else
      let deeper :=
        if last = '/' && c = '*' then depth + 1
        else if last = '*' && c = '/' then depth - 1
        else depth
      (restOfBlock deeper c cs).map fun (text, rest) => (c :: text, rest)

/-! ## Quoted text -/

/-- Reads up to a closing quote; two quotes stand for one. -/
def quoted (quote : Char) : List Char → Option (List Char × List Char)
  | [] => none
  | [c] => if c = quote then some ([], []) else none
  | c :: d :: cs =>
    if c = quote then
      if d = quote then (quoted quote cs).map fun (value, rest) => (quote :: value, rest)
      else some ([], d :: cs)
    else (quoted quote (d :: cs)).map fun (value, rest) => (c :: value, rest)

/-- What a backslash and a character stand for; most characters stand for themselves. -/
def unescape : Char → Char
  | 'n' => '\n'
  | 'r' => '\r'
  | 't' => '\t'
  | c => c

/-- Reads up to a closing quote that no backslash precedes. -/
def escaped : List Char → Option (List Char × List Char)
  | [] => none
  | c :: cs =>
    if c = '\\' then
      match cs with
      | [] => none
      | d :: cs => (escaped cs).map fun (value, rest) => (unescape d :: value, rest)
    else if c = stringQuote then
      match cs with
      | [] => some ([], [])
      | d :: ds =>
        if d = stringQuote then
          (escaped ds).map fun (value, rest) => (stringQuote :: value, rest)
        else some ([], cs)
    else (escaped cs).map fun (value, rest) => (c :: value, rest)

/-- Reads up to two dollar signs. -/
def dollarQuoted : List Char → Option (List Char × List Char)
  | '$' :: '$' :: cs => some ([], cs)
  | c :: cs => (dollarQuoted cs).map fun (value, rest) => (c :: value, rest)
  | [] => none

/-- What follows a tag, of which `unread` is left to read, and a dollar sign. -/
def closingTag (tag : String) : (unread : List Char) → List Char → Except Fault (List Char)
  | [], cs =>
    match cs with
    | '$' :: rest => .ok rest
    | _ => .error ⟨"Unterminated dollar-quoted string, expected $", cs⟩
  | c :: unread, cs =>
    if cs.head? = some c then closingTag tag unread cs.tail
    else
      .error ⟨"Unterminated dollar-quoted string at or near \"" ++ tag ++ "\"", cs.tail⟩

/-- Reads up to a dollar sign, which the tag has to follow with another one. -/
def tagQuoted (tag cs : List Char) : Except Fault (List Char × List Char) :=
  let (value, rest) := span (· ≠ '$') cs
  match rest with
  | '$' :: rest => (closingTag (String.ofList tag) tag rest).map fun rest => (value, rest)
  | _ => .error ⟨"Unterminated dollar-quoted, expected $", rest⟩

/-- The characters of a tag and of the name of a parameter. -/
def isTagPart (c : Char) : Bool :=
  Alphabetic.isAlphabetic c || Numeric.isNumeric c || c = '_'

/-- What follows a dollar sign: a quoted text or the name of a parameter. -/
def dollar (cs : List Char) : Except Fault (Token × List Char) :=
  let (tag, rest) := span isTagPart cs
  let token : List Char × List Char → Token × List Char :=
    fun (value, rest) => (.dollar (String.ofList tag) (String.ofList value), rest)
  match rest with
  | '$' :: rest =>
    if tag.isEmpty then
      closed "Unterminated dollar-quoted string" [] ((dollarQuoted rest).map token)
    else (tagQuoted tag rest).map token
  | _ => .ok (.placeholder (String.ofList ('$' :: tag)), rest)

/-! ## Numbers -/

/-- A sign, if there is one. -/
def sign : List Char → List Char × List Char
  | '+' :: cs => (['+'], cs)
  | '-' :: cs => (['-'], cs)
  | cs => ([], cs)

/-- An exponent, if there is one with digits. -/
def exponent : List Char → List Char × List Char
  | [] => ([], [])
  | e :: cs =>
    let digits := span Char.isDigit (sign cs).2
    if (e = 'e' || e = 'E') && !digits.1.isEmpty then (e :: (sign cs).1 ++ digits.1, digits.2)
    else ([], e :: cs)

/-- A decimal point, if there is one. -/
def point : List Char → List Char × List Char
  | '.' :: cs => (['.'], cs)
  | cs => ([], cs)

/-- Whether a number is marked as long. -/
def longMark : List Char → Bool × List Char
  | 'L' :: cs => (true, cs)
  | cs => (false, cs)

/-- A number, or a lone period. -/
def decimal (cs : List Char) : Token × List Char :=
  let whole := span Char.isDigit cs
  let dot := point whole.2
  let fraction := span Char.isDigit dot.2
  let digits := whole.1 ++ dot.1 ++ fraction.1
  if digits = ['.'] then (.symbol ".", fraction.2)
  else
    let power := exponent fraction.2
    let mark := longMark power.2
    (.number (String.ofList (digits ++ power.1)) mark.1, mark.2)

/-- A number, a hexadecimal string, or a lone period. -/
def number : List Char → Token × List Char
  | '0' :: 'x' :: cs =>
    let digits := span isHexDigit cs
    (.hex (String.ofList digits.1), digits.2)
  | cs => decimal cs

/-! ## Symbols -/

/-- The symbols of several characters, the longer ones first. -/
def longSymbols : List String :=
  ["->>", "||/", "!~*", "<=>", "#>>",
    "->", "||", "|/", "=>", "!=", "!!", "!~", "<=", "<>", "<<", "<@", ">=", ">>", "::", "~*",
    "#>", "#-", "@>", "@?", "@@"]

/-- Both spellings of inequality are one symbol. -/
def canonicalSymbol (s : String) : String := if s = "!=" then "<>" else s

/-- The longest symbol a text starts with. -/
def symbol (c : Char) (cs : List Char) : Token × List Char :=
  match longSymbols.find? fun s => s.toList.isPrefixOf (c :: cs) with
  | some s => (.symbol (canonicalSymbol s), (c :: cs).drop s.length)
  | none => (.symbol (String.singleton c), cs)

/-! ## Texts -/

/-- A name or keyword that starts with `c`. -/
def word (c : Char) (cs : List Char) : Token × List Char :=
  let (name, rest) := span isNamePart cs
  (.word (String.ofList (c :: name)) false, rest)

/-- A numbered parameter, of which the question mark was read. -/
def parameter (cs : List Char) : Token × List Char :=
  let (digits, rest) := span Numeric.isNumeric cs
  (.placeholder (String.ofList ('?' :: digits)), rest)

/-- A name between quotes. -/
def quotedName (cs : List Char) : Option (Token × List Char) :=
  (quoted nameQuote cs).map fun (value, rest) => (.word (String.ofList value) true, rest)

/-- A string with escapes. -/
def escapedString (cs : List Char) : Option (Token × List Char) :=
  (escaped cs).map fun (value, rest) => (.escaped (String.ofList value), rest)

/-- A string of the given kind. -/
def stringOf (kind : String → Token) (cs : List Char) : Option (Token × List Char) :=
  (quoted stringQuote cs).map fun (value, rest) => (kind (String.ofList value), rest)

/-- A comment up to the end of the line, of which two dashes were read. -/
def lineComment (cs : List Char) : Token × List Char :=
  let (text, rest) := restOfLine cs
  (.blank (String.ofList ('-' :: '-' :: text)), rest)

/-- A comment between marks, of which the opening one was read. -/
def blockComment (cs : List Char) : Option (Token × List Char) :=
  (restOfBlock 1 ' ' cs).map fun (text, rest) =>
    (.blank (String.ofList ('/' :: '*' :: text)), rest)

/-- The next token of a text that starts with `c`. Every end of a line is the same token, and
so are all other blanks but tabs. -/
def lexeme (c : Char) (cs : List Char) : Except Fault (Token × List Char) :=
  let inQuotes (place : List Char) (read : Option (Token × List Char)) :=
    closed "Unterminated string literal" place read
  let withEscapes (read : Option (Token × List Char)) :=
    closed "Unterminated encoded string literal" (c :: cs) read
  match c, cs with
  | '\t', rest => .ok (.blank "\t", rest)
  | '\n', rest => .ok (.blank "\n", rest)
  | '\r', '\n' :: rest => .ok (.blank "\n", rest)
  | '\r', rest => .ok (.blank "\n", rest)
  | '-', '-' :: rest => .ok (lineComment rest)
  | '/', '*' :: rest =>
    closed "Unexpected EOF while in a multi-line comment" [] (blockComment rest)
  | 'N', '\x27' :: rest => inQuotes ('\x27' :: rest) (stringOf .national rest)
  | 'n', '\x27' :: rest => inQuotes ('\x27' :: rest) (stringOf .national rest)
  | 'X', '\x27' :: rest => inQuotes ('\x27' :: rest) (stringOf .hex rest)
  | 'x', '\x27' :: rest => inQuotes ('\x27' :: rest) (stringOf .hex rest)
  | 'E', '\x27' :: rest => withEscapes (escapedString rest)
  | 'e', '\x27' :: rest => withEscapes (escapedString rest)
  | '\x27', rest => inQuotes ('\x27' :: rest) (stringOf .string rest)
  | '\x22', rest =>
    closed "Expected close delimiter '\"' before EOF." ('\x22' :: rest) (quotedName rest)
  | '$', rest => dollar rest
  | '?', rest => .ok (parameter rest)
  | c, rest =>
    if Blank.isBlank c then .ok (.blank " ", rest)
    else if isNameStart c then .ok (word c rest)
    else if c.isDigit || c = '.' then .ok (number (c :: rest))
    else .ok (symbol c rest)

/-! ## Reading moves on -/

theorem length_span_le (p : Char → Bool) (cs : List Char) : (span p cs).2.length ≤ cs.length :=
  (List.dropWhile_suffix p).length_le

theorem length_restOfLine_le (cs : List Char) : (restOfLine cs).2.length ≤ cs.length := by
  have h := length_span_le (· ≠ '\n') cs
  simp only [restOfLine, List.length_drop]
  omega

theorem length_of_restOfBlock {depth : Nat} {last : Char} {cs text rest : List Char}
    (h : restOfBlock depth last cs = some (text, rest)) : rest.length ≤ cs.length := by
  fun_induction restOfBlock depth last cs generalizing text with
  | case1 => cases h
  | case2 => cases h; exact Nat.le_succ _
  | case3 =>
    rename_i ih
    obtain ⟨⟨t, r⟩, ht, hr⟩ := Option.map_eq_some_iff.1 h
    cases hr
    exact Nat.le_succ_of_le (ih ht)

theorem length_of_quoted {quote : Char} {cs value rest : List Char}
    (h : quoted quote cs = some (value, rest)) : rest.length ≤ cs.length := by
  fun_induction quoted quote cs generalizing value with
  | case1 => cases h
  | case2 => cases h; exact Nat.le_succ _
  | case3 => cases h
  | case4 cs ih =>
    obtain ⟨⟨v, r⟩, hv, hr⟩ := Option.map_eq_some_iff.1 h
    cases hr
    have := ih hv
    simp only [List.length_cons]
    omega
  | case5 => cases h; exact Nat.le_succ _
  | case6 c d cs _ ih =>
    obtain ⟨⟨v, r⟩, hv, hr⟩ := Option.map_eq_some_iff.1 h
    cases hr
    exact Nat.le_succ_of_le (ih hv)

theorem length_of_escaped {cs value rest : List Char} (h : escaped cs = some (value, rest)) :
    rest.length ≤ cs.length := by
  fun_induction escaped cs generalizing value with
  | case1 => cases h
  | case2 => cases h
  | case3 d cs ih =>
    obtain ⟨⟨v, r⟩, hv, hr⟩ := Option.map_eq_some_iff.1 h
    cases hr
    have := ih hv
    simp only [List.length_cons]
    omega
  | case4 => cases h; exact Nat.le_succ _
  | case5 ds _ ih =>
    obtain ⟨⟨v, r⟩, hv, hr⟩ := Option.map_eq_some_iff.1 h
    cases hr
    have := ih hv
    simp only [List.length_cons]
    omega
  | case6 => cases h; exact Nat.le_succ _
  | case7 c cs _ _ ih =>
    obtain ⟨⟨v, r⟩, hv, hr⟩ := Option.map_eq_some_iff.1 h
    cases hr
    exact Nat.le_succ_of_le (ih hv)

theorem length_of_dollarQuoted {cs value rest : List Char}
    (h : dollarQuoted cs = some (value, rest)) : rest.length ≤ cs.length := by
  fun_induction dollarQuoted cs generalizing value with
  | case1 cs =>
    cases h
    simp only [List.length_cons]
    omega
  | case2 c cs _ ih =>
    obtain ⟨⟨v, r⟩, hv, hr⟩ := Option.map_eq_some_iff.1 h
    cases hr
    exact Nat.le_succ_of_le (ih hv)
  | case3 => cases h

theorem closed_eq_ok_iff {α : Type} {reason : String} {place : List Char} {read : Option α}
    {a : α} : closed reason place read = .ok a ↔ read = some a := by
  cases read <;> simp [closed]

theorem length_of_closingTag {tag : String} {unread cs rest : List Char}
    (h : closingTag tag unread cs = .ok rest) : rest.length ≤ cs.length := by
  fun_induction closingTag tag unread cs with
  | case1 => cases h; exact Nat.le_succ _
  | case2 => cases h
  | case3 c unread cs _ ih =>
    have := ih h
    simp only [List.length_tail] at this
    omega
  | case4 => cases h

theorem length_of_tagQuoted {tag cs value rest : List Char}
    (h : tagQuoted tag cs = .ok (value, rest)) : rest.length ≤ cs.length := by
  have hspan := length_span_le (· ≠ '$') cs
  unfold tagQuoted at h
  generalize span (· ≠ '$') cs = parts at h hspan
  obtain ⟨text, rest'⟩ := parts
  dsimp only at h hspan
  split at h
  · rename_i r
    simp only [List.length_cons] at hspan
    cases hr : closingTag (String.ofList tag) tag r with
    | error f => rw [hr] at h; cases h
    | ok r' =>
      rw [hr] at h
      cases h
      have := length_of_closingTag hr
      omega
  · cases h

theorem length_of_dollar {cs rest : List Char} {t : Token} (h : dollar cs = .ok (t, rest)) :
    rest.length ≤ cs.length := by
  unfold dollar at h
  have hspan := length_span_le isTagPart cs
  generalize span isTagPart cs = parts at h hspan
  obtain ⟨tag, rest'⟩ := parts
  dsimp only at h hspan
  split at h
  · rename_i r
    simp only [List.length_cons] at hspan
    split at h
    · obtain ⟨⟨v, r⟩, hv, hr⟩ := Option.map_eq_some_iff.1 (closed_eq_ok_iff.1 h)
      obtain rfl : r = rest := congrArg Prod.snd hr
      have := length_of_dollarQuoted hv
      omega
    · cases hv : tagQuoted tag r with
      | error f => rw [hv] at h; cases h
      | ok p =>
        rw [hv] at h
        obtain rfl : p.2 = rest := congrArg Prod.snd (Except.ok.inj h)
        have := length_of_tagQuoted hv
        omega
  · cases h; exact hspan

theorem length_sign_le (cs : List Char) : (sign cs).2.length ≤ cs.length := by
  unfold sign
  split <;> simp

theorem length_exponent_le (cs : List Char) : (exponent cs).2.length ≤ cs.length := by
  unfold exponent
  split
  · exact Nat.le_refl _
  · rename_i e cs
    have hsign := length_sign_le cs
    have hspan := length_span_le Char.isDigit (sign cs).2
    dsimp only
    split
    · simp only [List.length_cons]
      omega
    · exact Nat.le_refl _

theorem length_point_le (cs : List Char) : (point cs).2.length ≤ cs.length := by
  unfold point
  split <;> simp

theorem length_longMark_le (cs : List Char) : (longMark cs).2.length ≤ cs.length := by
  unfold longMark
  split <;> simp

theorem length_decimal_le (c : Char) (cs : List Char) (h : c.isDigit ∨ c = '.') :
    (decimal (c :: cs)).2.length ≤ cs.length := by
  have hpoint : (point (span Char.isDigit (c :: cs)).2).2.length ≤ cs.length := by
    by_cases hc : c.isDigit
    · have := length_span_le Char.isDigit cs
      refine Nat.le_trans (length_point_le _) ?_
      simpa [span, List.dropWhile_cons, hc] using this
    · obtain rfl := h.resolve_left hc
      exact Nat.le_refl _
  have hfraction := length_span_le Char.isDigit (point (span Char.isDigit (c :: cs)).2).2
  have hpower := length_exponent_le (span Char.isDigit (point (span Char.isDigit (c :: cs)).2).2).2
  have hmark := length_longMark_le
    (exponent (span Char.isDigit (point (span Char.isDigit (c :: cs)).2).2).2).2
  unfold decimal
  dsimp only
  split
  · exact Nat.le_trans hfraction hpoint
  · exact Nat.le_trans hmark (Nat.le_trans hpower (Nat.le_trans hfraction hpoint))

theorem length_number_le (c : Char) (cs : List Char) (h : c.isDigit ∨ c = '.') :
    (number (c :: cs)).2.length ≤ cs.length := by
  unfold number
  split
  · rename_i cs' heq
    cases heq
    exact Nat.le_succ_of_le (length_span_le _ _)
  · exact length_decimal_le c cs h

theorem length_symbol_le (c : Char) (cs : List Char) : (symbol c cs).2.length ≤ cs.length := by
  unfold symbol
  split
  · rename_i s hs
    have hmem := List.mem_of_find?_eq_some hs
    have hpos : 0 < s.length := by
      simp only [longSymbols, List.mem_cons, List.not_mem_nil, or_false] at hmem
      rcases hmem with h | h | h | h | h | h | h | h | h | h | h | h | h | h | h | h | h | h | h
        | h | h | h | h | h | h <;> subst h <;> decide
    simp only [List.length_drop, List.length_cons]
    omega
  · exact Nat.le_refl _

theorem length_of_stringOf {kind : String → Token} {cs rest : List Char} {t : Token}
    (h : stringOf kind cs = some (t, rest)) : rest.length ≤ cs.length := by
  obtain ⟨⟨v, r⟩, hv, hr⟩ := Option.map_eq_some_iff.1 h
  cases hr
  exact length_of_quoted hv

theorem length_of_quotedName {cs rest : List Char} {t : Token}
    (h : quotedName cs = some (t, rest)) : rest.length ≤ cs.length := by
  obtain ⟨⟨v, r⟩, hv, hr⟩ := Option.map_eq_some_iff.1 h
  cases hr
  exact length_of_quoted hv

theorem length_of_escapedString {cs rest : List Char} {t : Token}
    (h : escapedString cs = some (t, rest)) : rest.length ≤ cs.length := by
  obtain ⟨⟨v, r⟩, hv, hr⟩ := Option.map_eq_some_iff.1 h
  cases hr
  exact length_of_escaped hv

theorem length_lineComment_le (cs : List Char) : (lineComment cs).2.length ≤ cs.length :=
  length_restOfLine_le cs

theorem length_of_blockComment {cs rest : List Char} {t : Token}
    (h : blockComment cs = some (t, rest)) : rest.length ≤ cs.length := by
  obtain ⟨⟨v, r⟩, hv, hr⟩ := Option.map_eq_some_iff.1 h
  cases hr
  exact length_of_restOfBlock hv

/-- What follows a lexeme is shorter than the text. -/
theorem length_of_lexeme {c : Char} {cs rest : List Char} {t : Token}
    (h : lexeme c cs = .ok (t, rest)) : rest.length ≤ cs.length := by
  unfold lexeme at h
  dsimp only at h
  split at h
  · cases h; exact Nat.le_refl _
  · cases h; exact Nat.le_refl _
  · cases h; exact Nat.le_succ _
  · cases h; exact Nat.le_refl _
  · cases h; exact Nat.le_succ_of_le (length_lineComment_le _)
  · exact Nat.le_succ_of_le (length_of_blockComment (closed_eq_ok_iff.1 h))
  · exact Nat.le_succ_of_le (length_of_stringOf (closed_eq_ok_iff.1 h))
  · exact Nat.le_succ_of_le (length_of_stringOf (closed_eq_ok_iff.1 h))
  · exact Nat.le_succ_of_le (length_of_stringOf (closed_eq_ok_iff.1 h))
  · exact Nat.le_succ_of_le (length_of_stringOf (closed_eq_ok_iff.1 h))
  · exact Nat.le_succ_of_le (length_of_escapedString (closed_eq_ok_iff.1 h))
  · exact Nat.le_succ_of_le (length_of_escapedString (closed_eq_ok_iff.1 h))
  · exact length_of_stringOf (closed_eq_ok_iff.1 h)
  · exact length_of_quotedName (closed_eq_ok_iff.1 h)
  · exact length_of_dollar h
  · cases h; exact length_span_le _ _
  · split at h
    · cases h; exact Nat.le_refl _
    · split at h
      · cases h; exact length_span_le _ _
      · split at h
        · rename_i hc
          obtain rfl := congrArg Prod.snd (Except.ok.inj h)
          exact length_number_le _ _ (by simpa using hc)
        · obtain rfl := congrArg Prod.snd (Except.ok.inj h)
          exact length_symbol_le _ _

/-- The tokens of a text, if all of it can be read. -/
def scan : List Char → Except Fault (List Token)
  | [] => .ok []
  | c :: cs =>
    match _h : lexeme c cs with
    | .error fault => .error fault
    | .ok (token, rest) => (scan rest).map (token :: ·)
termination_by cs => cs.length
decreasing_by exact Nat.lt_succ_of_le (length_of_lexeme _h)

/-- The line and the column at the end of a text, both from one on. -/
def endOf (text : List Char) : Nat × Nat :=
  text.foldl (fun (line, column) c => if c = '\n' then (line + 1, 1) else (line, column + 1))
    (1, 1)

/-- The tokens of a text; a fault is given with its place. -/
def tokens (text : List Char) : Except SyntaxError (List Token) :=
  match scan text with
  | .ok ts => .ok ts
  | .error fault =>
    let (line, column) := endOf (text.take (text.length - fault.rest.length))
    .error (.unclosed fault.reason line column)

end RelQuery.Sql.Lexer
