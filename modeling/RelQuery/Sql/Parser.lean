/-
  Parsers on lists of tokens: each reads a start of the list and leaves the rest, or fails.

  Blanks are passed over by whatever reads the token behind them. The tokens ahead bound the
  rounds of a loop and how deep operands, tables and query bodies are nested: each round but
  the last reads a token and each nested part comes after one, so the bound is never met. A list
  is the bound because it is at hand, where its length would have to be counted.

  A parser also keeps count of the levels that statements, queries and expressions may still be
  nested. The count outlives a failure: what was tried in vain may have used up levels for good.
-/
import RelQuery.Sql.Keyword
import RelQuery.Sql.SyntaxError
import RelQuery.Sql.Tree

namespace RelQuery.Sql

/-- How a parser ends: with a result or a failure, the tokens that are left and the count of levels
left. -/
structure Outcome (α : Type) where
  result : Except SyntaxError α
  rest : List Token
  levels : Int

/-- A parser reads tokens from the front: what is left is an end of what was ahead, also after a
failure. -/
structure Parser (α : Type) where
  run : List Token → Int → Outcome α
  suffix (tokens : List Token) (levels : Int) : (run tokens levels).rest <:+ tokens

namespace Parser

/-! ## Sequences -/

protected def pure {α : Type} (a : α) : Parser α where
  run tokens levels := ⟨.ok a, tokens, levels⟩
  suffix _ _ := List.suffix_rfl

protected def bind {α β : Type} (p : Parser α) (f : α → Parser β) : Parser β where
  run tokens levels :=
    match p.run tokens levels with
    | ⟨.ok a, rest, levels⟩ => (f a).run rest levels
    | ⟨.error e, rest, levels⟩ => ⟨.error e, rest, levels⟩
  suffix tokens levels := by
    have h := p.suffix tokens levels
    split
    · rename_i a rest levels' heq
      rw [heq] at h
      exact ((f a).suffix rest levels').trans h
    · rename_i e rest levels' heq
      rwa [heq] at h

instance : Monad Parser where
  pure := Parser.pure
  bind := Parser.bind

/-- A failure may be handled where it happened: what was read stays read. -/
instance : MonadExceptOf SyntaxError Parser where
  throw e := { run := fun tokens levels => ⟨.error e, tokens, levels⟩
               suffix := fun _ _ => List.suffix_rfl }
  tryCatch p handle :=
    { run := fun tokens levels =>
        match p.run tokens levels with
        | ⟨.error e, rest, levels⟩ => (handle e).run rest levels
        | outcome => outcome
      suffix := fun tokens levels => by
        have h := p.suffix tokens levels
        split
        · rename_i e rest levels' heq
          rw [heq] at h
          exact ((handle e).suffix rest levels').trans h
        · exact h }

/-- Reads what a function takes off the tokens ahead. -/
def taking {α : Type} (f : List Token → α × List Token) (h : ∀ tokens, (f tokens).2 <:+ tokens) :
    Parser α where
  run tokens levels := ⟨.ok (f tokens).1, (f tokens).2, levels⟩
  suffix tokens _ := h tokens

/-- A parser that is there only once it is asked for. -/
def delay {α : Type} (p : Unit → Parser α) : Parser α where
  run tokens levels := (p ()).run tokens levels
  suffix tokens levels := (p ()).suffix tokens levels

/-! ## Single tokens -/

/-- All tokens ahead, which stay unread. -/
def ahead : Parser (List Token) := taking (fun tokens => (tokens, tokens)) fun _ => List.suffix_rfl

/-- Token `n` of those that are no blanks. -/
def nth? : (n : Nat) → List Token → Option Token
  | _, [] => none
  | n, t :: ts =>
    if t.isBlank then nth? n ts
    else match n with
      | 0 => some t
      | n + 1 => nth? n ts

/-- The token `n` places ahead, if there are so many. -/
def peekAt (n : Nat) : Parser (Option Token) := do return nth? n (← ahead)

/-- The next token, which stays unread. -/
def peek : Parser (Option Token) := peekAt 0

/-- The first of some tokens, if there is one, and those after it. -/
def splitFirst : List Token → Option Token × List Token
  | [] => (none, [])
  | t :: ts => (some t, ts)

theorem splitFirst_suffix (tokens : List Token) : (splitFirst tokens).2 <:+ tokens := by
  cases tokens with
  | nil => exact List.suffix_rfl
  | cons t ts => exact List.suffix_cons t ts

/-- Reads the next token even if it is a blank, if there is one. -/
def nextOfAll : Parser (Option Token) := taking splitFirst splitFirst_suffix

/-- Reads a token, if there is one. -/
def next : Parser (Option Token) :=
  taking (fun tokens => splitFirst (tokens.dropWhile Token.isBlank)) fun _ =>
    (splitFirst_suffix _).trans (List.dropWhile_suffix _)

/-! ## Failures -/

/-- Fails because of a token, or the end, in the place of something else. -/
def unexpected {α : Type} (found : Option Token) (what : String) : Parser α :=
  throw (.expected what found)

/-- Fails because something else comes next. -/
def expected {α : Type} (what : String) : Parser α := do unexpected (← peek) what

/-- Fails because of words that do not go together. -/
def refuse {α : Type} (reason : String) : Parser α := throw (.refused reason)

/-- Fails in the given way unless a condition holds. -/
def require (condition : Bool) (failure : Parser Unit) : Parser Unit :=
  if condition then pure () else failure

/-! ## Words and symbols -/

/-- Whether the token ahead has a property. -/
def isAhead (p : Token → Bool) : Parser Bool := do return (← peek).any p

/-- Reads the next token if it has a property, and says whether it did. -/
def accept (p : Token → Bool) : Parser Bool := do
  if ← isAhead p then
    let _ ← next
    return true
  else return false

/-- Reads a keyword if it comes next. -/
def keyword? (k : String) : Parser Bool := accept (·.isKeyword k)

/-- Reads a symbol if it comes next. -/
def symbol? (s : String) : Parser Bool := accept (·.isSymbol s)

/-- Reads what `p` reads or, if that is nothing, what `q` reads. -/
def either? (p q : Parser Bool) : Parser Bool := do
  if ← p then return true else q

def keyword (k : String) : Parser Unit := do require (← keyword? k) (expected k)

def symbol (s : String) : Parser Unit := do require (← symbol? s) (expected s)

/-- What follows a sequence of keywords with which tokens begin. -/
def afterKeywords? : (ks : List String) → List Token → Option (List Token)
  | [], ts => some ts
  | k :: ks, ts =>
    match ts.dropWhile Token.isBlank with
    | t :: ts => if t.isKeyword k then afterKeywords? ks ts else none
    | [] => none

theorem afterKeywords?_suffix {ks : List String} {tokens rest : List Token}
    (h : afterKeywords? ks tokens = some rest) : rest <:+ tokens := by
  induction ks generalizing tokens with
  | nil =>
    cases h
    exact List.suffix_rfl
  | cons k ks ih =>
    rw [afterKeywords?] at h
    split at h
    · rename_i t ts heq
      split at h
      · have hdrop := List.dropWhile_suffix Token.isBlank (l := tokens)
        rw [heq] at hdrop
        exact ((ih h).trans (List.suffix_cons t ts)).trans hdrop
      · cases h
    · cases h

/-- Reads a sequence of keywords if all of it comes next, and nothing otherwise. -/
def keywords? (ks : List String) : Parser Bool :=
  taking (fun tokens =>
    match afterKeywords? ks tokens with
    | some rest => (true, rest)
    | none => (false, tokens)) fun tokens => by
      split
      · rename_i rest h
        exact afterKeywords?_suffix h
      · exact List.suffix_rfl

/-- Reads a sequence of keywords. -/
def keywords (ks : List String) : Parser Unit := ks.forM keyword

/-- Reads whichever of the keywords comes next. -/
def oneOf? (ks : List String) : Parser (Option String) := do
  match (← peek).bind fun t => ks.find? fun k => t.isKeyword k with
  | some k =>
    let _ ← next
    return some k
  | none => return none

/-- Reads one of the keywords, which together are called `what`. -/
def oneOfThe (what : String) (ks : List String) : Parser String := do
  match ← oneOf? ks with
  | some k => return k
  | none => expected what

/-- Reads one of the keywords. -/
def oneOf (ks : List String) : Parser String := do
  match ← oneOf? ks with
  | some k => return k
  | none => expected ("one of " ++ " or ".intercalate ks)

/-! ## Choices and loops -/

/-- What `p` reads, or nothing where it fails; then nothing is read. -/
def attempt {α : Type} (p : Parser α) : Parser (Option α) where
  run tokens levels :=
    match p.run tokens levels with
    | ⟨.ok a, rest, levels⟩ => ⟨.ok (some a), rest, levels⟩
    | ⟨.error _, _, levels⟩ => ⟨.ok none, tokens, levels⟩
  suffix tokens levels := by
    have h := p.suffix tokens levels
    split
    · rename_i heq
      rwa [heq] at h
    · exact List.suffix_rfl

/-- What `p` reads; where it gives nothing, nothing is read. -/
def tentative {α : Type} (p : Parser (Option α)) : Parser (Option α) where
  run tokens levels :=
    match p.run tokens levels with
    | ⟨.ok none, _, levels⟩ => ⟨.ok none, tokens, levels⟩
    | outcome => outcome
  suffix tokens levels := by
    have h := p.suffix tokens levels
    split
    · exact List.suffix_rfl
    · exact h

/-- Reads something one level deeper. With no level left this fails, and the level that was
asked for is not given back; a negative count sets no limit. -/
def deeper {α : Type} (p : Parser α) : Parser α where
  run tokens levels :=
    if levels = 0 then ⟨.error .tooDeep, tokens, levels - 1⟩
    else
      let outcome := p.run tokens (levels - 1)
      { outcome with levels := outcome.levels + 1 }
  suffix tokens levels := by
    split
    · exact List.suffix_rfl
    · exact p.suffix tokens (levels - 1)

/-- Repeats a step as long as it gives something, once for each token of `ahead` and once more
at most. -/
def repeatAlong {α : Type} (step : α → Parser (Option α)) :
    (ahead : List Token) → α → Parser α
  | [], a => do return (← step a).getD a
  | _ :: ahead, a => do
    match ← step a with
    | some b => repeatAlong step ahead b
    | none => return a

/-- Repeats a step as long as it gives something. -/
def iterate {α : Type} (step : α → Parser (Option α)) (a : α) : Parser α := do
  repeatAlong step (← ahead) a

/-- Everything a parser gives until it gives nothing. -/
def many {α : Type} (p : Parser (Option α)) : Parser (List α) := do
  return (← iterate (fun as => do return (← p).map (· :: as)) []).reverse

/-- One or more, with commas between them. -/
def separated {α : Type} (p : Parser α) : Parser (List α) := do
  let first ← p
  let more ← many do
    if ← symbol? "," then return some (← p) else return none
  return first :: more

/-- What stands in parentheses. -/
def parenthesized {α : Type} (p : Parser α) : Parser α := do
  symbol "("
  let a ← p
  symbol ")"
  return a

/-- What stands in parentheses, if a parenthesis opens here. -/
def parenthesized? {α : Type} (p : Parser α) : Parser (Option α) := do
  if ← isAhead (·.isSymbol "(") then return some (← parenthesized p) else return none

/-- What follows a keyword, if the keyword comes next. -/
def after? {α : Type} (k : String) (p : Parser α) : Parser (Option α) := do
  if ← keyword? k then return some (← p) else return none

/-- What follows a sequence of keywords, if all of it comes next. -/
def afterAll? {α : Type} (ks : List String) (p : Parser α) : Parser (Option α) := do
  if ← keywords? ks then return some (← p) else return none

/-- What follows a sequence of keywords; nothing otherwise. -/
def listAfter {α : Type} (ks : List String) (p : Parser α) : Parser (List α) := do
  return (← afterAll? ks (separated p)).getD []

/-! ## Names -/

/-- The name a word is. -/
def identOf (text : String) (quoted : Bool) : Ident :=
  ⟨text, if quoted then some nameQuote else none⟩

/-- A name; a string may stand for one. -/
def ident : Parser Ident := do
  match ← next with
  | some (.word text quoted) => return identOf text quoted
  | some (.string value) => return ⟨value, some stringQuote⟩
  | found => unexpected found "identifier"

/-- A word, not a string; `what` says for what it stands. -/
def wordIdent (what : String) : Parser Ident := do
  match ← next with
  | some (.word text quoted) => return identOf text quoted
  | found => unexpected found what

/-- A part of a name after a period. -/
def namePart : Parser Ident := wordIdent "an identifier or a '*' after '.'"

/-- A name with its qualifiers. -/
def name : Parser Name := do
  let first ← ident
  let more ← many do
    if ← symbol? "." then return some (← ident) else return none
  return first :: more

/-- Names with commas between them, read and given as text. -/
def identList : Parser String := do
  return commaSeparated ((← separated ident).map Ident.canonical)

/-- All words up to an equals sign or the end; other tokens are passed over. -/
def wordsAhead : Parser (List Ident) := do
  let names ← many do
    match ← peek with
    | some (.symbol "=") | none => return none
    | some (.word text quoted) =>
      let _ ← next
      return some [identOf text quoted]
    | some _ =>
      let _ ← next
      return some []
  return names.flatten

/-- A list of names in parentheses. -/
def columns : Parser (List Ident) := do
  require (← isAhead (·.isSymbol "(")) (expected "a list of columns in parentheses")
  parenthesized (separated ident)

/-- A list of names in parentheses, or none. -/
def columns? : Parser (List Ident) := do return (← parenthesized? (separated ident)).getD []

/-- The text of a string; a word that is only a name may stand for one. -/
def stringLiteral : Parser String := do
  match ← next with
  | some (.word text quoted) =>
    if !quoted && Keyword.isKeyword text then
      unexpected (some (.word text quoted)) "literal string"
    else return text
  | some (.string value) => return value
  | some (.escaped value) => return value
  | found => unexpected found "literal string"

/-- The value of an unsigned number of 64 bits without a fraction. -/
def unsigned : Parser Nat := do
  match ← next with
  | some (.number digits _) =>
    let refused (reason : String) : Parser Nat :=
      refuse ("Could not parse '" ++ digits ++ "' as u64: " ++ reason)
    match digits.toNat? with
    | some n =>
      if !digits.all Char.isDigit then refused "invalid digit found in string"
      else if n < UInt64.size then return n
      else refused "number too large to fit in target type"
    | none => refused "invalid digit found in string"
  | found => unexpected found "literal int"

/-- An alias; without AS it may be none of the words that go on with the statement. -/
def alias? (reserved : List String) : Parser (Option Ident) := do
  let marked ← keyword? "AS"
  match ← peek with
  | some (.word text quoted) =>
    if marked || quoted || !reserved.contains text.toUpper then return some (← ident)
    else return none
  | some (.string _) => return some (← ident)
  | _ => if marked then expected "an identifier after AS" else return none

end Parser

end RelQuery.Sql
