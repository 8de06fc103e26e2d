/-
  Comparisons between different types: binding a query warns of each of them once, and a query with
  one has no rows.

  The warning goes by declared types, the test by stored values. A tuple has a value of the declared
  type at each of its positions (`Tuple.exists_typed`), so what is warned of never holds, be it
  tested in a scan, in a loop or as the key of a hash table.

  Main statement: `Session.Attained.select_mismatched`.
-/
import RelQuery.Proofs.Query.Unreadable
import RelQuery.Proofs.Statement.Safe

namespace RelQuery

open Log (Journal Level)

/-! ## Warnings -/

/-- The texts of the warnings in a journal. -/
def Log.warnings (j : Journal) : List String :=
  (j.filter (·.level = .warn)).map (·.text)

namespace Reading

variable {α β : Type}

/-- The reading adds these warnings to the journal, on every layout. -/
def Warns (x : Reading α) (texts : List String) : Prop :=
  ∀ l j, Log.warnings (x.run l j).2 = Log.warnings j ++ texts

namespace Warns

theorem of_journal {x : Reading α} (h : ∀ l j, (x.run l j).2 = j) : x.Warns [] := by
  intro l j
  rw [h l j, List.append_nil]

theorem pure (a : α) : Warns (Pure.pure a : Reading α) [] := of_journal fun _ _ => rfl

theorem throw (e : Error) : Warns (MonadExcept.throw e : Reading α) [] :=
  of_journal fun _ _ => rfl

theorem ofExcept (r : Except Error α) : Warns (MonadExcept.ofExcept r : Reading α) [] := by
  cases r with
  | ok a => exact pure a
  | error e => exact throw e

theorem of (f : Store.Layout → Except Error α × Store.Layout) : Warns (Reading.of f) [] :=
  of_journal fun _ _ => rfl

theorem report (level : Level) (text : String) :
    Warns (Log.report level text) (if level = .warn then [text] else []) := by
  intro l j
  have hrun : ((Log.report level text : Reading Unit).run l j).2 = j ++ [⟨level, text⟩] := rfl
  rw [hrun, Log.warnings, List.filter_append, List.map_append]
  by_cases h : level = .warn <;> simp [Log.warnings, h]

/-- After a reading that gives a value, the warnings of what is read with it follow. -/
theorem bind {x : Reading α} {f : α → Reading β} {a : α} {texts texts' : List String}
    (hgives : x.Gives (.ok a)) (hx : x.Warns texts) (hf : (f a).Warns texts') :
    (x >>= f).Warns (texts ++ texts') := by
  intro l j
  have hok : (x.run l j).1.1 = .ok a := hgives l j
  rw [run_bind, hok, ← List.append_assoc, ← hx l j]
  exact hf _ _

/-- Without warnings it does not matter what is given. -/
theorem andThen {x : Reading α} {f : α → Reading β} (hx : x.Warns []) (hf : ∀ a, (f a).Warns []) :
    (x >>= f).Warns [] := by
  intro l j
  rw [run_bind, ← hx l j]
  generalize (x.run l j).1.1 = r
  cases r with
  | error e => rfl
  | ok a =>
    have ha := hf a (x.run l j).1.2 (x.run l j).2
    rwa [List.append_nil] at ha

theorem mapM {f : α → Reading β} {g : α → Except Error β} {w : α → Option String}
    (hgives : ∀ a, (f a).Gives (g a)) (hf : ∀ a b, g a = .ok b → (f a).Warns (w a).toList)
    {as : List α} {bs : List β} (h : List.Forall₂ (fun a b => g a = .ok b) as bs) :
    (as.mapM f).Warns (as.filterMap w) := by
  induction h with
  | nil => exact pure []
  | @cons a b as bs hb hbs ih =>
    have hrest : (as.mapM f).Gives (.ok bs) := by
      rw [← mapM_eq_ok_of_forall₂ hbs]
      exact Gives.mapM hgives as
    have htexts : (a :: as).filterMap w = (w a).toList ++ (as.filterMap w ++ []) := by
      cases hw : w a <;> simp [hw]
    have ha : (f a).Gives (.ok b) := hb ▸ hgives a
    rw [List.mapM_cons, htexts]
    exact bind ha (hf a b hb) (bind hrest ih (pure (b :: bs)))

end Warns

end Reading

open Reading (Warns)

namespace JoinTree

variable {db : Database} {filters : List Predicate}

theorem joinOn_quiet (left : Plan) (e : Edge) : Warns (joinOn db filters left e) [] := by
  have hcount : Warns (countRows db.store e.right) [] := Warns.of _
  have hchoice : Warns (chooseStrategy db e.predicate e.right) [] := by
    unfold chooseStrategy
    split
    · refine hcount.andThen fun rows => ?_
      exact (Warns.report .debug _).andThen fun _ => Warns.pure _
    · exact Warns.pure _
  exact hchoice.andThen fun strategy => Warns.pure _

theorem grow_quiet (joined : List Schema) (plan : Plan) (edges : List Edge) :
    Warns (grow db filters joined plan edges) [] := by
  fun_induction chain joined edges generalizing plan with
  | case1 joined edges hempty =>
    rw [grow, if_pos hempty]
    exact Warns.pure _
  | case2 joined edges hne err hp =>
    rw [grow_eq hne, hp]
    exact Warns.throw _
  | case3 joined edges hne hp =>
    rw [grow_eq hne, hp]
    exact Warns.throw _
  | case4 joined edges hne e rest hp _ ih =>
    rw [grow_eq hne, hp]
    exact (joinOn_quiet plan e).andThen fun plan' => ih plan'

/-- Building a tree warns of nothing. -/
theorem build_quiet (relations : List Schema) (predicates : List Predicate) :
    Warns (build db relations predicates) [] := by
  unfold build
  dsimp only
  split
  · exact Warns.of_journal fun _ _ => rfl
  · refine (Warns.ofExcept _).andThen fun _ => ?_
    split
    · split
      · exact Warns.throw _
      · exact Warns.pure _
    · exact (joinOn_quiet _ _).andThen fun plan => grow_quiet _ plan _

end JoinTree

/-! ## Comparisons between different types -/

/-- The type that is declared for what an operand stands for. -/
def Operand.type? (s : Scope) : Operand → Option Ty
  | constant d => some d.type
  | attr n => (s.resolve n).toOption.bind (·.type?)

/-- How an operand is shown once it is bound. -/
def Operand.text (s : Scope) : Operand → String
  | constant d => d.quoted
  | attr n => ((s.resolve n).toOption.map (·.text)).getD n.text

/-- The type of an operand as it is shown in a warning. -/
def Operand.typeText (s : Scope) (o : Operand) : String := ((o.type? s).map Ty.text).getD ""

/-- The operands are of different types. -/
def Comparison.Mismatched (s : Scope) (c : Comparison) : Prop := c.left.type? s ≠ c.right.type? s

instance (s : Scope) : DecidablePred (Comparison.Mismatched s) :=
  fun _ => inferInstanceAs (Decidable (_ ≠ _))

/-- The warning about a comparison, if its operands are of different types. -/
def Comparison.warning? (s : Scope) (c : Comparison) : Option String :=
  if c.Mismatched s then
    some ("Predicate " ++ (c.left.text s ++ " = " ++ c.right.text s) ++ " compares "
      ++ c.left.typeText s ++ " with " ++ c.right.typeText s ++ ", it can never hold")
  else none

/-- A term over some relations has a value of its type among tuples of them. -/
theorem Term.among_typed {rs : List Schema} {ts : List Tuple} {t : Term} (h : JoinTree.BoundIn rs t)
    (hn : Apart ts) (hts : rs ⊆ ts.map (·.schema)) :
    ∃ d, t.among ts = some d ∧ t.type? = some d.type := by
  cases t with
  | constant d => exact ⟨d, rfl, rfl⟩
  | attr a =>
    obtain ⟨hmem, hposition⟩ := h
    obtain ⟨r, p⟩ := a
    obtain ⟨t, ht, rfl⟩ := List.mem_map.1 (hts hmem)
    obtain ⟨d, hd, htype⟩ := t.exists_typed hposition
    refine ⟨d, ?_, htype⟩
    rw [among_attr hn ht]
    exact hd

/-- Values of different types are not equal, so terms of different types have different values. -/
theorem Predicate.holdsAmong_eq_false {rs : List Schema} {ts : List Tuple} {p : Predicate}
    (hl : JoinTree.BoundIn rs p.left) (hr : JoinTree.BoundIn rs p.right)
    (htypes : p.left.type? ≠ p.right.type?) (hn : Apart ts) (hts : rs ⊆ ts.map (·.schema)) :
    p.holdsAmong ts = false := by
  obtain ⟨l, hlamong, hltype⟩ := Term.among_typed hl hn hts
  obtain ⟨r, hramong, hrtype⟩ := Term.among_typed hr hn hts
  refine decide_eq_false fun hsame => htypes ?_
  rw [hlamong, hramong] at hsame
  cases hsame
  rw [hltype, hrtype]

namespace Binding

variable {s : Scope}

theorem operand_declared {o : Operand} {t : Term} (h : operand s o = .ok t) :
    t.type? = o.type? s ∧ t.text = o.text s := by
  cases o with
  | constant d =>
    cases h
    exact ⟨rfl, rfl⟩
  | attr n =>
    obtain ⟨a, ha, rfl⟩ := map_eq_ok_iff.1 h
    rw [Operand.type?, Operand.text, ha]
    exact ⟨rfl, rfl⟩

theorem predicateOf_types {c : Comparison} {p : Predicate} (h : predicateOf s c = .ok p) :
    c.Mismatched s ↔ p.left.type? ≠ p.right.type? := by
  obtain ⟨hl, hr, -⟩ := operands_of_predicateOf h
  rw [Comparison.Mismatched, (operand_declared hl).1, (operand_declared hr).1]

/-- The warning of a comparison in terms of the predicate that it is bound to. -/
theorem warning?_eq {c : Comparison} {p : Predicate} (h : predicateOf s c = .ok p) :
    c.warning? s = if p.left.type? ≠ p.right.type? then
      some ("Predicate " ++ p.text ++ " compares " ++ typeText p.left ++ " with "
        ++ typeText p.right ++ ", it can never hold") else none := by
  obtain ⟨hl, hr, -⟩ := operands_of_predicateOf h
  obtain ⟨hltype, hltext⟩ := operand_declared hl
  obtain ⟨hrtype, hrtext⟩ := operand_declared hr
  obtain ⟨-, hbound, -⟩ := predicateOf_eq_ok h
  refine if_congr (predicateOf_types h) (congrArg some ?_) rfl
  rw [Operand.typeText, Operand.typeText, ← hltype, ← hrtype, ← hltext, ← hrtext,
    Predicate.text_eq hbound.1.inRange hbound.2.inRange]
  rfl

/-- A comparison that can be bound is warned of if its operands are of different types. -/
theorem comparison_warns {c : Comparison} {p : Predicate} (h : predicateOf s c = .ok p) :
    (comparison s c).Warns (c.warning? s).toList := by
  obtain ⟨hl, hr, hsome⟩ := operands_of_predicateOf h
  rw [warning?_eq h]
  unfold comparison
  rw [hl, hr]
  refine .bind (.ofExcept (.ok p.left)) (.ofExcept (.ok p.left)) ?_
  refine .bind (.ofExcept (.ok p.right)) (.ofExcept (.ok p.right)) ?_
  dsimp only
  rw [if_neg hsome]
  split
  · exact .bind (.report _ _) (.report _ _) (.pure _)
  · exact .pure _

/-- Binding a query that has a plan warns of its mismatched comparisons, once of each. -/
theorem query_warns {db : Database} {q : Query} {rs : List Schema} {ps : List Predicate}
    {outs : List Term} (hrs : relations db.catalog [] q.relations = .ok rs)
    (hps : q.comparisons.mapM (predicateOf ⟨rs⟩) = .ok ps)
    (houts : outputs ⟨rs⟩ q.outputs = .ok outs) (hdistinct : q.distinct = false)
    (horder : q.orderBy = none) :
    (query db q).Warns (q.comparisons.filterMap (·.warning? ⟨rs⟩)) := by
  have hcomparisons : (q.comparisons.mapM (comparison ⟨rs⟩)).Gives (.ok ps) :=
    hps ▸ Reading.Gives.mapM (comparison_gives ⟨rs⟩) q.comparisons
  have hwarns := Warns.mapM (comparison_gives ⟨rs⟩) (fun c p => comparison_warns)
    (forall₂_of_mapM_eq_ok hps)
  unfold query
  rw [hrs]
  refine .bind (.ofExcept (.ok rs)) (.ofExcept (.ok rs)) ?_
  rw [← List.append_nil (q.comparisons.filterMap _)]
  refine .bind hcomparisons hwarns ?_
  rw [houts, hdistinct, horder]
  refine .bind (.ofExcept (.ok outs)) (.ofExcept (.ok outs)) ?_
  exact (JoinTree.build_quiet rs ps).andThen fun input => .pure _

/-- A mismatched comparison leaves nothing of the product. -/
theorem product_eq_nil {db : Database} {q : Query} {rs : List Schema} {ps : List Predicate}
    {input : Plan} (hrs : relations db.catalog [] q.relations = .ok rs)
    (hps : q.comparisons.mapM (predicateOf ⟨rs⟩) = .ok ps)
    (hinput : JoinTree.planOf db rs (ps.filter (! ·.isJoin)) (JoinTree.edgesOf ps) = .ok input)
    {c : Comparison} (hc : c ∈ q.comparisons) (hmismatch : c.Mismatched ⟨rs⟩) :
    input.product db.store = [] := by
  obtain ⟨_, rfl, -, -, hnodup⟩ := relations_eq_ok hrs
  obtain ⟨hconstant, hbound, -⟩ := predicates_eq_ok hps
  have hn := hnodup List.nodup_nil
  obtain ⟨-, hscans, htests⟩ := JoinTree.planOf_eq_ok hn hbound hconstant hinput
  obtain ⟨p, hp, hcp⟩ := exists_mem_of_forall₂ (forall₂_of_mapM_eq_ok hps) hc
  have htypes := (predicateOf_types hcp).1 hmismatch
  rw [Plan.product, List.filter_eq_nil_iff]
  intro ts hts
  have hschemas := schemas_of_mem_combinations hts
  have hapart := apart_of_schemas hschemas ((hscans.map (·.name)).symm.nodup hn)
  have hfails : p.holdsAmong ts = false :=
    Predicate.holdsAmong_eq_false (hbound p hp).1 (hbound p hp).2 htypes hapart
      (hschemas ▸ hscans.symm.subset)
  rw [htests]
  intro hall
  exact Bool.false_ne_true (hfails.symm.trans (List.all_eq_true.1 hall p hp))

end Binding

/-! ## Queries with such a comparison -/

namespace Session

variable {db : Database}

/-- `Binding.query` `Warns` of each comparison that is `Mismatched`, once and in their order, and of
nothing else. If there is one, in an `Attained` state with `FitsRows`, the query succeeds and has no
rows. -/
theorem Attained.select_mismatched {n : Nat} (h : Attained Request.FitsRows n db)
    {statement : Statement} {q : Query} (hq : statement.request? = .ok (.select q))
    (hbound : ∃ l j p, (Binding.query db q).result l j = .ok p) :
    ∃ rs, Binding.relations db.catalog [] q.relations = .ok rs
      ∧ (Binding.query db q).Warns (q.comparisons.filterMap (·.warning? ⟨rs⟩))
      ∧ ((∃ c ∈ q.comparisons, c.Mismatched ⟨rs⟩) → ∀ j, ∃ result,
        statement.run.result db j = .ok result ∧ result.outcome.rows = []) := by
  have hserved := h.intact.served
  obtain ⟨l, j, p, hp⟩ := hbound
  rw [query_gives_of_served hserved q l j] at hp
  obtain ⟨rs, ps, outs, input, hrs, hps, houts, hdistinct, horder, hinput, rfl⟩ :=
    Binding.planOf_eq_ok_iff.1 hp
  refine ⟨rs, hrs, Binding.query_warns hrs hps houts hdistinct horder, ?_⟩
  rintro ⟨c, hc, hmismatch⟩ j
  have hempty := Binding.product_eq_nil hrs hps hinput hc hmismatch
  refine ⟨_, Statement.run_select hserved hq hp j, ?_⟩
  rw [hempty]
  rfl

/-- The common numbers that are equal to a text. -/
def sevenAsText : Query :=
  { common with comparisons := common.comparisons ++
      [⟨.attr ⟨some "a", "n"⟩, .constant (.string "7")⟩] }

theorem select_sevenAsText :
    (Binding.query withSevens sevenAsText).Warns
        ["Predicate a.n = '7' compares INTEGER with STRING, it can never hold"]
      ∧ ∃ result, (Statement.request (.select sevenAsText)).run.result withSevens [] = .ok result
        ∧ result.outcome.rows = [] := by
  obtain ⟨n, hattained⟩ := (reachable_withSevens.mono fun _ => Request.Fits.rows).exists_attained
  have hbound : ∃ l j p, (Binding.query withSevens sevenAsText).result l j = .ok p := by
    refine ⟨.empty, [], ?_⟩
    have hok : ((Binding.query withSevens sevenAsText).result .empty []).toOption.isSome := by
      decide +kernel
    cases hresult : (Binding.query withSevens sevenAsText).result .empty [] with
    | error e => rw [hresult] at hok; cases hok
    | ok p => exact ⟨p, rfl⟩
  have hrequest : (Statement.request (.select sevenAsText)).request? = .ok (.select sevenAsText) :=
    rfl
  obtain ⟨rs, hrs, hwarns, hempty⟩ := hattained.select_mismatched hrequest hbound
  have hscope : (Binding.relations withSevens.catalog [] sevenAsText.relations).map (fun rs =>
      (sevenAsText.comparisons.filterMap (·.warning? ⟨rs⟩),
        sevenAsText.comparisons.any fun c => decide (c.Mismatched ⟨rs⟩)))
      = .ok (["Predicate a.n = '7' compares INTEGER with STRING, it can never hold"], true) := by
    decide +kernel
  rw [hrs] at hscope
  obtain ⟨htexts, hany⟩ := Prod.mk.inj (Except.ok.inj hscope)
  obtain ⟨c, hc, hmismatch⟩ := List.any_eq_true.1 hany
  exact ⟨htexts ▸ hwarns, hempty ⟨c, hc, of_decide_eq_true hmismatch⟩ []⟩

/-- A text that does not fit its record is read, and found to be no record, before it is compared
with a number that it cannot equal. -/
theorem mismatched_unreadable :
    (∃ n, Attained (fun _ => True) n (withText (longText (2 ^ 32))))
      ∧ (∃ p, (Binding.query (withText (longText (2 ^ 32))) textsThatAreSeven).Gives (.ok p))
      ∧ (∃ rs, Binding.relations (withText (longText (2 ^ 32))).catalog []
          textsThatAreSeven.relations = .ok rs
        ∧ ∃ c ∈ textsThatAreSeven.comparisons, c.Mismatched ⟨rs⟩)
      ∧ ∃ e, (Statement.request (.select textsThatAreSeven)).run.result
          (withText (longText (2 ^ 32))) [] = .error e ∧ e.IsStorageFault :=
  ⟨exists_attained_withText _, ⟨_, planOf_textsThatAreSeven _⟩,
    ⟨[.texts "b"], rfl, _, List.mem_cons_self, by decide⟩,
    run_textsThatAreSeven (longText_not_fits le_rfl) []⟩

end Session

end RelQuery
