/-
  Which expressions are conditions, and which comparisons they ask for.

  A condition is made of equalities by AND and parentheses. What counts is the row of its leaves
  (`Expr.leaves`): each has to be an equality of two operands, and gives one comparison. How the
  leaves are grouped leaves no trace (`Expr.Regrouped`). Parentheses around an operand are another
  matter: a value keeps its meaning in them, a name does not stand in them at all.

  Main statement: `Expr.conjuncts_of_leaves`.
-/
import RelQuery.Proofs.Sql.Refusals

namespace RelQuery.Sql

/-! ## Values -/

/-- One more decimal digit behind a number. -/
def withDigit (n : Nat) (c : Char) : Nat := 10 * n + (c.toNat - '0'.toNat)

/-- The number that a row of decimal digits stands for. -/
def decimal (digits : List Char) : Nat := digits.foldl withDigit 0

/-- The literal is a number in range, or a string. -/
inductive Literal.Denotes : Literal → Datum → Prop
  | number {digits : String} {long : Bool} (hne : digits.toList ≠ [])
    (hdigits : ∀ c ∈ digits.toList, c.isDigit = true)
    (hrange : decimal digits.toList ≤ maxInteger) :
    Denotes (.number digits long) (.int (Int64.ofInt (decimal digits.toList)))
  | string (value : String) : Denotes (.string value) (.string value)

/-- The expression is a literal, perhaps in parentheses, and with minus signs if it is a number. -/
inductive Expr.Denotes : Expr → Datum → Prop
  | literal {value : Literal} {d : Datum} (h : value.Denotes d) : Denotes (.literal value) d
  | nested {e : Expr} {d : Datum} (h : Denotes e d) : Denotes (.nested e) d
  | minus {e : Expr} {v : Int64} (h : Denotes e (.int v)) : Denotes (.unary .minus e) (.int (-v))

theorem le_foldl_withDigit (n : Nat) (cs : List Char) : n ≤ cs.foldl withDigit n := by
  induction cs generalizing n with
  | nil => exact Nat.le_refl n
  | cons c cs ih =>
    have hstep : n ≤ withDigit n c := by
      unfold withDigit
      omega
    exact Nat.le_trans hstep (ih _)

/-- A numeral is read if it has only digits and stays in range; then it never left the range. -/
theorem integerValue_eq_ok_iff {numeral : String} {value n : Nat} {cs : List Char}
    (h : value ≤ maxInteger) : integerValue numeral value cs = .ok n
      ↔ (∀ c ∈ cs, c.isDigit = true) ∧ cs.foldl withDigit value ≤ maxInteger
        ∧ n = cs.foldl withDigit value := by
  induction cs generalizing value with
  | nil =>
    constructor
    · intro hn
      cases hn
      exact ⟨List.forall_mem_nil _, h, rfl⟩
    · rintro ⟨-, -, rfl⟩
      rfl
  | cons c cs ih =>
    rw [integerValue, List.forall_mem_cons, List.foldl_cons]
    by_cases hdigit : c.isDigit = true
    · rw [if_pos hdigit]
      dsimp only
      by_cases hnext : 10 * value + (c.toNat - '0'.toNat) ≤ maxInteger
      · rw [if_pos hnext, ih hnext, and_iff_right hdigit]
        rfl
      · -- What has left the range does not come back to it.
        rw [if_neg hnext]
        have hover := le_foldl_withDigit (withDigit value c) cs
        have hstep : ¬ withDigit value c ≤ maxInteger := hnext
        refine iff_of_false ?_ ?_
        · intro hn
          cases hn
        · rintro ⟨-, hle, -⟩
          exact hstep (Nat.le_trans hover hle)
    · rw [if_neg hdigit]
      refine iff_of_false ?_ ?_
      · intro hn
        cases hn
      · rintro ⟨hall, -⟩
        exact hdigit hall.1

theorem Literal.datum_eq_ok_iff {value : Literal} {d : Datum} :
    value.datum = .ok d ↔ value.Denotes d := by
  have hzero : 0 ≤ maxInteger := Nat.zero_le _
  constructor
  · intro h
    cases value with
    | number digits long =>
      obtain ⟨hne, h⟩ := check_eq_ok_iff.1 h
      obtain ⟨_, hn, rfl⟩ := map_eq_ok_iff.1 h
      obtain ⟨n, hn, hcast⟩ := exists_of_bind_eq_ok hn
      obtain ⟨hdigits, hrange, rfl⟩ := (integerValue_eq_ok_iff hzero).1 hn
      cases hcast
      exact .number hne hdigits hrange
    | string value =>
      cases h
      exact .string value
    | other text => cases h
  · intro h
    cases h with
    | @number digits _ hne hdigits hrange =>
      have hn : integerValue digits 0 digits.toList = .ok (decimal digits.toList) :=
        (integerValue_eq_ok_iff hzero).2 ⟨hdigits, hrange, rfl⟩
      exact check_eq_ok_iff.2 ⟨hne, map_eq_ok_iff.2 ⟨_, bind_eq_ok_iff.2 ⟨_, hn, rfl⟩, rfl⟩⟩
    | string value => rfl

theorem Expr.datum_eq_ok_iff {e : Expr} {d : Datum} : e.datum = .ok d ↔ e.Denotes d := by
  constructor
  · intro h
    fun_induction Expr.datum e generalizing d with
    | case1 value => exact .literal (Literal.datum_eq_ok_iff.1 h)
    | case2 inner ih => exact .nested (ih h)
    | case3 operand ih =>
      obtain ⟨d', hd, h⟩ := exists_of_bind_eq_ok h
      cases d' with
      | int v =>
        cases h
        exact .minus (ih hd)
      | string s => cases h
    | case4 => cases h
  · intro h
    induction h with
    | literal h => exact Literal.datum_eq_ok_iff.2 h
    | nested _ ih => exact ih
    | minus _ ih =>
      rw [Expr.datum, ih]
      rfl

/-! ## Operands -/

/-- The expression is a name, with its relation or without, or a value. -/
inductive Expr.StandsFor : Expr → Operand → Prop
  | name (i : Ident) : StandsFor (.ident i) (.attr ⟨none, i.text⟩)
  | qualified (r i : Ident) : StandsFor (.compound [r, i]) (.attr ⟨some r.text, i.text⟩)
  | value {e : Expr} {d : Datum} (h : e.Denotes d) : StandsFor e (.constant d)

/-- A compound name names an attribute if it has two parts. -/
theorem Expr.exists_of_attributeName {names : Name} {a : AttributeName}
    (h : (compound names).attributeName = .ok a) :
    ∃ r i : Ident, names = [r, i] ∧ a = ⟨some r.text, i.text⟩ := by
  unfold Expr.attributeName at h
  split at h
  · rename_i heq
    cases heq
  · rename_i r i heq
    cases heq
    cases h
    exact ⟨r, i, rfl, rfl⟩
  · cases h
  · cases h

theorem Expr.operand_eq_ok_iff {e : Expr} {o : Operand} : e.operand = .ok o ↔ e.StandsFor o := by
  constructor
  · intro h
    unfold Expr.operand at h
    split at h
    · rename_i i
      cases h
      exact .name i
    · obtain ⟨a, ha, rfl⟩ := map_eq_ok_iff.1 h
      obtain ⟨r, i, rfl, rfl⟩ := Expr.exists_of_attributeName ha
      exact .qualified r i
    · obtain ⟨d, hd, rfl⟩ := map_eq_ok_iff.1 h
      exact .value (Expr.datum_eq_ok_iff.1 hd)
  · intro h
    cases h with
    | name i => rfl
    | qualified r i => rfl
    | value h =>
      have hd := Expr.datum_eq_ok_iff.2 h
      cases h <;> exact map_eq_ok_iff.2 ⟨_, hd, rfl⟩

/-! ## Leaves -/

/-- What is left of a condition without its conjunctions and the parentheses around its parts. -/
def Expr.leaves : Expr → List Expr
  | nested inner => inner.leaves
  | binary .and left right => left.leaves ++ right.leaves
  | e => [e]

theorem Expr.leaves_and (left right : Expr) :
    (binary .and left right).leaves = left.leaves ++ right.leaves := rfl

/-- What is no conjunction and not in parentheses is a leaf. -/
theorem Expr.leaves_of_leaf {e : Expr} (hnested : ∀ inner, e ≠ nested inner)
    (hand : ∀ left right, e ≠ binary .and left right) : e.leaves = [e] := by
  rw [Expr.leaves]
  · exact hnested
  · exact hand

/-- The expression is the equality of what its sides stand for. -/
inductive Expr.Equates : Expr → Comparison → Prop
  | equality {left right : Expr} {l r : Operand} (hl : left.StandsFor l) (hr : right.StandsFor r) :
    Equates (.binary .eq left right) ⟨l, r⟩

/-- The comparison that a leaf asks for. -/
def Expr.comparison : Expr → Except Error Comparison
  | binary .eq left right => do
    let l ← left.operand
    let r ← right.operand
    return ⟨l, r⟩
  | e =>
    .error (.unsupported
      ("predicate " ++ e.canonical ++ ", only conjunctions of equalities are allowed"))

theorem Expr.comparison_eq_ok_iff {e : Expr} {c : Comparison} :
    e.comparison = .ok c ↔ e.Equates c := by
  constructor
  · intro h
    unfold Expr.comparison at h
    split at h
    · obtain ⟨l, hl, h⟩ := exists_of_bind_eq_ok h
      obtain ⟨r, hr, h⟩ := exists_of_bind_eq_ok h
      cases h
      exact .equality (Expr.operand_eq_ok_iff.1 hl) (Expr.operand_eq_ok_iff.1 hr)
    · cases h
  · intro h
    cases h with
    | equality hl hr =>
      rw [Expr.comparison, Expr.operand_eq_ok_iff.2 hl, Expr.operand_eq_ok_iff.2 hr]
      rfl

/-- A condition is read leaf by leaf, up to the first that is no equality. -/
theorem Expr.conjuncts_eq_mapM (e : Expr) : e.conjuncts = e.leaves.mapM Expr.comparison := by
  fun_induction Expr.conjuncts e with
  | case1 inner ih => exact ih
  | case2 left right ihl ihr =>
    rw [Expr.leaves_and, List.mapM_append, ihl, ihr]
  | case3 left right =>
    have hleaf : (binary .eq left right).leaves = [binary .eq left right] :=
      Expr.leaves_of_leaf (by simp) (by simp)
    rw [hleaf, List.mapM_cons, List.mapM_nil, Expr.comparison]
    cases left.operand with
    | error x => rfl
    | ok l => cases right.operand <;> rfl
  | case4 e hnested hand heq =>
    have hcomparison : e.comparison = .error (.unsupported
        ("predicate " ++ e.canonical ++ ", only conjunctions of equalities are allowed")) := by
      rw [Expr.comparison]
      exact heq
    rw [Expr.leaves_of_leaf hnested hand, List.mapM_cons, hcomparison]
    rfl

/-! ## Grouping -/

/-- The expressions differ in nothing but how conjunctions are grouped, and in parentheses. -/
inductive Expr.Regrouped : Expr → Expr → Prop
  | refl (e : Expr) : Regrouped e e
  | symm {e e' : Expr} (h : Regrouped e e') : Regrouped e' e
  | trans {e e' e'' : Expr} (h : Regrouped e e') (h' : Regrouped e' e'') : Regrouped e e''
  | parentheses (e : Expr) : Regrouped (.nested e) e
  | assoc (e₁ e₂ e₃ : Expr) :
    Regrouped (.binary .and (.binary .and e₁ e₂) e₃) (.binary .and e₁ (.binary .and e₂ e₃))
  | and {left left' right right' : Expr} (hl : Regrouped left left')
    (hr : Regrouped right right') :
    Regrouped (.binary .and left right) (.binary .and left' right')

theorem Expr.Regrouped.leaves_eq {e e' : Expr} (h : e.Regrouped e') : e'.leaves = e.leaves := by
  induction h with
  | refl e => rfl
  | symm _ ih => exact ih.symm
  | trans _ _ ih ih' => exact ih'.trans ih
  | parentheses e => rfl
  | assoc e₁ e₂ e₃ =>
    rw [leaves_and, leaves_and, leaves_and, leaves_and, List.append_assoc]
  | and _ _ ihl ihr => rw [leaves_and, leaves_and, ihl, ihr]

/-- `conjuncts` gives the equalities that the `leaves` of a condition are (`Equates`), in their
order, and refuses it as `Misread` if one of them is none. A condition that is `Regrouped` gives the
same. -/
theorem Expr.conjuncts_of_leaves (e : Expr) :
    ((∃ cs, e.conjuncts = .ok cs) ↔ ∀ leaf ∈ e.leaves, ∃ c, leaf.Equates c)
      ∧ (∀ cs, e.conjuncts = .ok cs ↔ List.Forall₂ Expr.Equates e.leaves cs)
      ∧ FailsOnly Misread e.conjuncts
      ∧ ∀ e', e.Regrouped e' → e'.conjuncts = e.conjuncts := by
  have hok (cs : List Comparison) :
      e.conjuncts = .ok cs ↔ List.Forall₂ Expr.Equates e.leaves cs := by
    have hrel : (fun leaf c => leaf.comparison = .ok c) = Expr.Equates := by
      funext leaf c
      exact propext Expr.comparison_eq_ok_iff
    rw [e.conjuncts_eq_mapM, mapM_eq_ok_iff, hrel]
  refine ⟨⟨?_, ?_⟩, hok, e.conjuncts_failsOnly, ?_⟩
  · rintro ⟨cs, hcs⟩ leaf hleaf
    obtain ⟨c, -, hc⟩ := exists_mem_of_forall₂ ((hok cs).1 hcs) hleaf
    exact ⟨c, hc⟩
  · intro hall
    obtain ⟨cs, hcs⟩ := exists_forall₂ hall
    exact ⟨cs, (hok cs).2 hcs⟩
  · intro e' h
    rw [e.conjuncts_eq_mapM, e'.conjuncts_eq_mapM, h.leaves_eq]

/-- `a = 1 AND (b.n = 'x' AND c = -(2))`. -/
def threeEqualities : Expr :=
  .binary .and (.binary .eq (.ident ⟨"a", none⟩) (.literal (.number "1" false)))
    (.nested (.binary .and
      (.binary .eq (.compound [⟨"b", none⟩, ⟨"n", none⟩]) (.literal (.string "x")))
      (.binary .eq (.ident ⟨"c", none⟩)
        (.unary .minus (.nested (.literal (.number "2" false)))))))

/-- `((a = 1 AND (b.n = 'x')) AND c = -(2))`. -/
def threeRegrouped : Expr :=
  .nested (.binary .and
    (.binary .and (.binary .eq (.ident ⟨"a", none⟩) (.literal (.number "1" false)))
      (.nested (.binary .eq (.compound [⟨"b", none⟩, ⟨"n", none⟩]) (.literal (.string "x")))))
    (.binary .eq (.ident ⟨"c", none⟩)
      (.unary .minus (.nested (.literal (.number "2" false))))))

theorem threeEqualities_regrouped : threeEqualities.Regrouped threeRegrouped := by
  have hinner : threeEqualities.Regrouped (.binary .and _ (.binary .and _ _)) :=
    .and (.refl _) (.parentheses _)
  have hassoc := hinner.trans (Expr.Regrouped.assoc _ _ _).symm
  have hwrap := hassoc.trans (.and (.and (.refl _) (Expr.Regrouped.parentheses _).symm) (.refl _))
  exact hwrap.trans (Expr.Regrouped.parentheses _).symm

theorem Expr.conjuncts_threeRegrouped :
    threeEqualities.Regrouped threeRegrouped
      ∧ threeEqualities.conjuncts = .ok [⟨.attr ⟨none, "a"⟩, .constant (.int 1)⟩,
        ⟨.attr ⟨some "b", "n"⟩, .constant (.string "x")⟩,
        ⟨.attr ⟨none, "c"⟩, .constant (.int (-2))⟩]
      ∧ threeRegrouped.conjuncts = threeEqualities.conjuncts :=
  ⟨threeEqualities_regrouped, by decide +kernel,
    threeEqualities.conjuncts_of_leaves.2.2.2 threeRegrouped threeEqualities_regrouped⟩

end RelQuery.Sql
