/-
  What the statement of a text reads, and what it leaves.

  A parser reads tokens from the front and leaves an end of them (`Parser.suffix`); a statement
  reads at least one (`Grammar.statement_advances`). What it leaves ought to be nothing, or
  semicolons, but it is not looked at. So the tokens of a text that makes a request are those of
  the statement and any others, and where a slip ends the statement early, the rest of what was
  meant is dropped without notice.

  Main statement: `readRequest_reads_front`.
-/
import RelQuery.Sql.Reading

namespace RelQuery.Sql

/-! ## Reading on -/

namespace Parser

variable {α β : Type}

/-- A parser that gives something has read a token. -/
def Advances (p : Parser α) : Prop :=
  ∀ tokens levels a rest levels', p.run tokens levels = ⟨.ok a, rest, levels'⟩ →
    rest.length < tokens.length

/-- A sequence that gives something is one of two parsers that do. -/
theorem bind_eq_ok {p : Parser α} {f : α → Parser β} {tokens rest : List Token}
    {levels levels' : Int} {b : β} (h : (p >>= f).run tokens levels = ⟨.ok b, rest, levels'⟩) :
    ∃ a between levels'', p.run tokens levels = ⟨.ok a, between, levels''⟩
      ∧ (f a).run between levels'' = ⟨.ok b, rest, levels'⟩ := by
  have hbind : (Parser.bind p f).run tokens levels = ⟨.ok b, rest, levels'⟩ := h
  unfold Parser.bind at hbind
  dsimp only at hbind
  split at hbind
  · rename_i a between levels'' hp
    exact ⟨a, between, levels'', hp, hbind⟩
  · cases hbind

theorem length_le (p : Parser α) {tokens rest : List Token} {levels levels' : Int}
    {result : Except SyntaxError α} (h : p.run tokens levels = ⟨result, rest, levels'⟩) :
    rest.length ≤ tokens.length := by
  have hsuffix := p.suffix tokens levels
  rw [h] at hsuffix
  exact hsuffix.length_le

theorem Advances.bind {p : Parser α} (h : p.Advances) (f : α → Parser β) : (p >>= f).Advances := by
  intro tokens levels b rest levels' hrun
  obtain ⟨a, between, levels'', hp, hf⟩ := bind_eq_ok hrun
  exact Nat.lt_of_le_of_lt ((f a).length_le hf) (h _ _ _ _ _ hp)

theorem Advances.after {p : Parser α} {f : α → Parser β} (h : ∀ a, (f a).Advances) :
    (p >>= f).Advances := by
  intro tokens levels b rest levels' hrun
  obtain ⟨a, between, levels'', hp, hf⟩ := bind_eq_ok hrun
  exact Nat.lt_of_lt_of_le (h a _ _ _ _ _ hf) (p.length_le hp)

theorem Advances.throw (e : SyntaxError) : (throw e : Parser α).Advances := by
  intro tokens levels a rest levels' h
  cases h

theorem expected_advances (what : String) : (expected what : Parser α).Advances :=
  .after fun _ => .throw _

theorem nth?_zero (tokens : List Token) :
    nth? 0 tokens = (tokens.dropWhile Token.isBlank).head? := by
  induction tokens with
  | nil => rfl
  | cons t ts ih =>
    rw [nth?, List.dropWhile_cons]
    split
    · exact ih
    · rfl

/-- Behind a token that is ahead there is less to read. -/
theorem length_next_lt {tokens : List Token} {t : Token} (h : nth? 0 tokens = some t)
    (levels : Int) : (next.run tokens levels).rest.length < tokens.length := by
  have hdrop := (List.dropWhile_suffix Token.isBlank (l := tokens)).length_le
  rw [nth?_zero] at h
  have hrest : (next.run tokens levels).rest
      = (splitFirst (tokens.dropWhile Token.isBlank)).2 := rfl
  rw [hrest]
  cases hd : tokens.dropWhile Token.isBlank with
  | nil => rw [hd] at h; cases h
  | cons u us =>
    rw [hd] at hdrop
    exact hdrop

theorem length_of_accept {p : Token → Bool} {tokens rest : List Token} {levels levels' : Int}
    (h : (accept p).run tokens levels = ⟨.ok true, rest, levels'⟩) :
    rest.length < tokens.length := by
  obtain ⟨b, between, levels'', hahead, h⟩ := bind_eq_ok h
  have hpeek : (isAhead p).run tokens levels = ⟨.ok ((nth? 0 tokens).any p), tokens, levels⟩ := rfl
  rw [hpeek] at hahead
  cases hany : (nth? 0 tokens).any p with
  | false =>
    rw [hany] at hahead
    cases hahead
    cases h
  | true =>
    rw [hany] at hahead
    cases hahead
    cases ht : nth? 0 tokens with
    | none => rw [ht] at hany; cases hany
    | some t =>
      have hlt := length_next_lt ht levels
      cases h
      exact hlt

/-- What is tried on the token ahead advances if it does without that token. -/
theorem Advances.of_accept {p : Token → Bool} {f : Bool → Parser α} (h : (f false).Advances) :
    (accept p >>= f).Advances := by
  intro tokens levels a rest levels' hrun
  obtain ⟨b, between, levels'', hp, hf⟩ := bind_eq_ok hrun
  cases b with
  | true => exact Nat.lt_of_le_of_lt ((f true).length_le hf) (length_of_accept hp)
  | false => exact Nat.lt_of_lt_of_le (h _ _ _ _ _ hf) ((accept p).length_le hp)

theorem Advances.choice {p : Token → Bool} {x y : Parser α} (h : y.Advances) :
    (accept p >>= fun b => if b = true then x else y).Advances :=
  .of_accept h

theorem length_of_after? {k : String} {p : Parser α} {tokens rest : List Token}
    {levels levels' : Int} {a : α}
    (h : (after? k p).run tokens levels = ⟨.ok (some a), rest, levels'⟩) :
    rest.length < tokens.length := by
  obtain ⟨b, between, levels'', hp, hf⟩ := bind_eq_ok h
  cases b with
  | true => exact Nat.lt_of_le_of_lt (length_le _ hf) (length_of_accept hp)
  | false => cases hf

end Parser

/-! ## Statements -/

namespace Grammar

open Sql.Parser

theorem simpleBody_advances (inner : Level) : (simpleBody inner).Advances :=
  .choice (.choice (.choice (.of_accept (.bind (expected_advances _) _))))

theorem queryBody_advances (inner : Level) : (queryBody inner).Advances := by
  refine .after fun ahead => ?_
  cases ahead with
  | nil => exact .bind (simpleBody_advances inner) _
  | cons t ts => exact .bind (simpleBody_advances inner) _

/-- A query has an insertion or a body behind its WITH clause. -/
theorem query_advances (inner : Level) : (query inner (insertion? inner)).Advances := by
  refine .after fun ctes => ?_
  intro tokens levels a rest levels' hrun
  obtain ⟨text, between, levels'', hp, hf⟩ := bind_eq_ok hrun
  cases text with
  | none =>
    refine Nat.lt_of_lt_of_le ?_ ((insertion? inner).length_le hp)
    exact Advances.bind (queryBody_advances inner) _ _ _ _ _ _ hf
  | some text =>
    obtain ⟨inserted, between', levels', hafter, hmap⟩ := bind_eq_ok hp
    cases inserted with
    | none => cases hmap
    | some st =>
      cases hmap
      exact Nat.lt_of_le_of_lt (length_le _ hf) (length_of_after? hafter)

/-- A statement starts with a word that is read, or with a query. -/
theorem statement_advances (inner : Level) (h : inner.query.Advances) :
    (statement inner).Advances := by
  intro tokens levels a rest levels' hrun
  obtain ⟨t, between, levels'', hp, hf⟩ := bind_eq_ok hrun
  have hpeek : peek.run tokens levels = ⟨.ok (nth? 0 tokens), tokens, levels⟩ := rfl
  rw [hpeek] at hp
  cases hp
  split at hf
  · exact h.bind _ _ _ _ _ _ hf
  · rename_i text ht
    dsimp only at hf
    split at hf
    · exact h.bind _ _ _ _ _ _ hf
    · split at hf
      · obtain ⟨u, between, levels'', hnext, hrest⟩ := bind_eq_ok hf
        have hlt := length_next_lt ht levels
        rw [hnext] at hlt
        exact Nat.lt_of_le_of_lt (length_le _ hrest) hlt
      · exact expected_advances _ _ _ _ _ _ hf
  · exact expected_advances _ _ _ _ _ _ hf

/-- A level deeper what can be read stays the same. -/
theorem deeper_advances {α : Type} {p : Parser α} (h : p.Advances) : (deeper p).Advances := by
  intro tokens levels a rest levels' hrun
  unfold deeper at hrun
  dsimp only at hrun
  split at hrun
  · cases hrun
  · cases hp : p.run tokens (levels - 1) with
    | mk result rest' levels'' =>
      rw [hp] at hrun
      cases hrun
      exact h _ _ _ _ _ hp

theorem level_advances (depth : Nat) :
    (level depth).query.Advances ∧ (level depth).statement.Advances := by
  induction depth with
  | zero => exact ⟨.throw _, .throw _⟩
  | succ depth ih =>
    exact ⟨deeper_advances (query_advances (level depth)),
      deeper_advances (statement_advances (level depth) ih.1)⟩

/-- A text that is read consists of the tokens of its statement and those that are left. -/
theorem exists_front {text : String} {st : Statement} {rest : List Token}
    (h : read text = .ok (st, rest)) :
    ∃ front, front ≠ [] ∧ Lexer.tokens text.toList = .ok (front ++ rest) := by
  unfold read at h
  cases htokens : Lexer.tokens text.toList with
  | error e =>
    rw [htokens] at h
    cases h
  | ok tokens =>
    rw [htokens] at h
    dsimp only [bind, Except.bind] at h
    split at h
    · rename_i st' rest' levels hrun
      cases h
      have hsuffix := (level (tokens.length + 2)).statement.suffix tokens maxDepth
      have hlt := (level_advances (tokens.length + 2)).2 _ _ _ _ _ hrun
      rw [hrun] at hsuffix
      obtain ⟨front, rfl⟩ := hsuffix
      refine ⟨front, ?_, rfl⟩
      rintro rfl
      exact Nat.lt_irrefl _ hlt
    · cases h

end Grammar

/-! ## Texts -/

theorem Lexer.scan_of_lexeme {c : Char} {cs rest : List Char} {t : Token}
    (h : lexeme c cs = .ok (t, rest)) : scan (c :: cs) = (scan rest).map (t :: ·) := by
  rw [scan]
  split
  · rename_i heq
    rw [h] at heq
    cases heq
  · rename_i heq
    rw [h] at heq
    cases heq
    rfl

/-- The tokens of a statement that removes a relation. -/
def removal : List Token :=
  [.word "DROP" false, .blank " ", .word "TABLE" false, .blank " ", .word "r" false, .symbol ";"]

theorem Lexer.tokens_removal {cs : List Char} {ts : List Token} (h : tokens cs = .ok ts) :
    tokens ("DROP TABLE r;".toList ++ cs) = .ok (removal ++ ts) := by
  have hscan : scan cs = .ok ts := by
    unfold tokens at h
    split at h
    · cases h
      assumption
    · cases h
  have hall : scan ("DROP TABLE r;".toList ++ cs) = .ok (removal ++ ts) := by
    show scan ('D' :: 'R' :: 'O' :: 'P' :: ' ' :: 'T' :: 'A' :: 'B' :: 'L' :: 'E' :: ' ' :: 'r'
      :: ';' :: cs) = _
    rw [@scan_of_lexeme _ _ (' ' :: 'T' :: 'A' :: 'B' :: 'L' :: 'E' :: ' ' :: 'r' :: ';' :: cs)
        (.word "DROP" false) rfl,
      @scan_of_lexeme _ _ ('T' :: 'A' :: 'B' :: 'L' :: 'E' :: ' ' :: 'r' :: ';' :: cs)
        (.blank " ") rfl,
      @scan_of_lexeme _ _ (' ' :: 'r' :: ';' :: cs) (.word "TABLE" false) rfl,
      @scan_of_lexeme _ _ ('r' :: ';' :: cs) (.blank " ") rfl,
      @scan_of_lexeme _ _ (';' :: cs) (.word "r" false) rfl,
      @scan_of_lexeme _ _ cs (.symbol ";") rfl, hscan]
    rfl
  unfold tokens
  rw [hall]

theorem statement_removal (depth : Nat) (ts : List Token) :
    (Grammar.level (depth + 1)).statement.run (removal ++ ts) Grammar.maxDepth
      = ⟨.ok (.dropTable ⟨false, [[⟨"r", none⟩]], []⟩), .symbol ";" :: ts, 50⟩ := by
  unfold removal
  -- Keywords are compared in capitals, and `String.toUpper` is irreducible.
  with_unfolding_all rfl

/-- A text that consists of tokens may stand behind a statement, which stays the same. -/
theorem read_removal {tail : String} {ts : List Token}
    (h : Lexer.tokens tail.toList = .ok ts) : Grammar.read ("DROP TABLE r;" ++ tail)
      = .ok (.dropTable ⟨false, [[⟨"r", none⟩]], []⟩, .symbol ";" :: ts) := by
  rw [Grammar.read, String.toList_append, Lexer.tokens_removal h]
  dsimp only [bind, Except.bind]
  rw [statement_removal]
  rfl

/-- `readRequest` makes its request of the statement that `Grammar.read` finds in front, whatever
tokens are left; so `DROP TABLE r;` makes its request with any tokens behind it. -/
theorem readRequest_reads_front (text tail : String) (r : Request) :
    (readRequest text = .ok r ↔ ∃ front rest st, front ≠ []
      ∧ Lexer.tokens text.toList = .ok (front ++ rest) ∧ Grammar.read text = .ok (st, rest)
      ∧ st.request = .ok r)
    ∧ ((∃ ts, Lexer.tokens tail.toList = .ok ts) →
      readRequest ("DROP TABLE r;" ++ tail) = .ok (.dropTable "r")) := by
  refine ⟨⟨fun h => ?_, ?_⟩, ?_⟩
  · unfold readRequest at h
    split at h
    · rename_i st rest hread
      obtain ⟨front, hne, htokens⟩ := Grammar.exists_front hread
      exact ⟨front, rest, st, hne, htokens, hread, h⟩
    · cases h
  · rintro ⟨front, rest, st, -, -, hread, hst⟩
    rw [readRequest, hread]
    exact hst
  · rintro ⟨ts, h⟩
    rw [readRequest, read_removal h]
    rfl

end RelQuery.Sql
