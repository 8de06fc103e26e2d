/-
  The order in which a query names its relations and comparisons, and the side on which a comparison
  has an operand, have no part in its answer but in the order of the rows.

  What a name means depends on which relations are in scope (`Scope.resolve_perm`); so the reordered
  query is bound to the same predicates, in another order and perhaps swapped. Whether these have a
  join tree depends on the links that they make (`JoinTree.exists_planOf_iff`), and which rows the
  tree has on the relations and predicates alone (`JoinTree.planOf_eq_ok`), not on the tree.

  Main statement: `Session.Attained.select_reordered`.
-/
import RelQuery.Proofs.Query.Select
import RelQuery.Proofs.Query.Unreadable

namespace RelQuery

/-! ## Related things in any order -/

section

variable {α β γ δ : Type} {R : α → β → Prop} {as : List α} {bs : List β}

/-- For each thing in the first list the second one has a related thing of its own. -/
def Matched (R : α → β → Prop) (as : List α) (bs : List β) : Prop :=
  ∃ cs, List.Forall₂ R as cs ∧ cs.Perm bs

namespace Matched

theorem symm (h : Matched R as bs) : Matched (flip R) bs as := by
  obtain ⟨cs, hall, hperm⟩ := h
  exact List.perm_comp_forall₂ hperm.symm hall.flip

theorem length_eq (h : Matched R as bs) : as.length = bs.length := by
  obtain ⟨cs, hall, hperm⟩ := h
  exact hall.length_eq.trans hperm.length_eq

theorem exists_mem (h : Matched R as bs) {a : α} (ha : a ∈ as) : ∃ b ∈ bs, R a b := by
  obtain ⟨cs, hall, hperm⟩ := h
  obtain ⟨b, hb, hab⟩ := exists_mem_of_forall₂ hall ha
  exact ⟨b, hperm.subset hb, hab⟩

theorem all_eq {p : α → Bool} {q : β → Bool} (h : Matched R as bs)
    (hpq : ∀ a b, R a b → p a = q b) : as.all p = bs.all q := by
  rw [Bool.eq_iff_iff, List.all_eq_true, List.all_eq_true]
  constructor
  · intro hall b hb
    obtain ⟨a, ha, hab⟩ := h.symm.exists_mem hb
    rw [← hpq a b hab]
    exact hall a ha
  · intro hall a ha
    obtain ⟨b, hb, hab⟩ := h.exists_mem ha
    rw [hpq a b hab]
    exact hall b hb

theorem filterMap {f : α → Option γ} {g : β → Option δ} {S : γ → δ → Prop} (h : Matched R as bs)
    (hfg : ∀ a b, R a b → Option.Rel S (f a) (g b)) :
    Matched S (as.filterMap f) (bs.filterMap g) := by
  obtain ⟨cs, hall, hperm⟩ := h
  exact ⟨cs.filterMap g, List.rel_filterMap (fun a b => hfg a b) hall, hperm.filterMap g⟩

/-- Computations on related things that succeed with related results. -/
theorem mapM {f : α → Except Error γ} {g : β → Except Error δ} {S : γ → δ → Prop}
    (h : Matched R as bs)
    (hfg : ∀ a b x, R a b → f a = .ok x → ∃ y, g b = .ok y ∧ S x y) {xs : List γ}
    (hf : as.mapM f = .ok xs) : ∃ ys, bs.mapM g = .ok ys ∧ Matched S xs ys := by
  obtain ⟨cs, hall, hperm⟩ := h
  have hxs := forall₂_of_mapM_eq_ok hf
  have hys : ∃ ys, List.Forall₂ (fun b y => g b = .ok y) cs ys ∧ List.Forall₂ S xs ys := by
    clear hf hperm
    induction hall generalizing xs with
    | nil =>
      cases hxs
      exact ⟨[], .nil, .nil⟩
    | @cons a b as cs hab _ ih =>
      cases hxs with
      | cons hx hxs =>
        obtain ⟨y, hy, hxy⟩ := hfg a b _ hab hx
        obtain ⟨ys, hys, hall⟩ := ih hxs
        exact ⟨y :: ys, .cons hy hys, .cons hxy hall⟩
  obtain ⟨ys, hys, hall⟩ := hys
  obtain ⟨zs, hzs, hzsperm⟩ := List.perm_comp_forall₂ hperm.symm hys
  exact ⟨zs, mapM_eq_ok_of_forall₂ hzs, ys, hall, hzsperm.symm⟩

end Matched

end

/-! ## Names in another scope -/

namespace Scope

variable {s s' : Scope}

/-- What a name means depends on which relations there are, not on their order. -/
theorem resolve_perm (h : s.relations.Perm s'.relations) (hn : (s.relations.map (·.name)).Nodup)
    {n : AttributeName} {a : BoundAttribute} (ha : s.resolve n = .ok a) : s'.resolve n = .ok a := by
  have hn' : (s'.relations.map (·.name)).Nodup := (h.map _).nodup hn
  obtain ⟨relation, name⟩ := n
  cases relation with
  | some rn =>
    have hfind : s.relations.find? (·.name = rn) = s'.relations.find? (·.name = rn) := by
      refine Option.ext fun r => ?_
      rw [find?_eq_some_iff hn, find?_eq_some_iff hn', h.mem_iff]
    have ha : s.resolveIn rn name = .ok a := ha
    show s'.resolveIn rn name = .ok a
    rwa [resolveIn, ← hfind]
  | none =>
    have hcandidates : (s.candidates name).Perm (s'.candidates name) := h.filterMap _
    have ha : s.resolveAnywhere name = .ok a := ha
    show s'.resolveAnywhere name = .ok a
    unfold resolveAnywhere at ha ⊢
    split at ha
    · cases ha
    · rename_i b hb
      rw [hb, List.singleton_perm] at hcandidates
      rw [← hcandidates]
      exact ha
    · cases ha

end Scope

/-! ## Bound comparisons -/

/-- The same equality, perhaps read from right to left. -/
def Comparison.Same (c c' : Comparison) : Prop := c' = c ∨ c' = ⟨c.right, c.left⟩

def Predicate.Same (p p' : Predicate) : Prop := p' = p ∨ p' = p.swapped

theorem Comparison.Same.symm {c c' : Comparison} (h : c.Same c') : c'.Same c := by
  rcases h with rfl | rfl
  · exact .inl rfl
  · exact .inr rfl

theorem Predicate.Same.holdsAmong {p p' : Predicate} (h : p.Same p') (ts : List Tuple) :
    p.holdsAmong ts = p'.holdsAmong ts := by
  rcases h with rfl | rfl
  · rfl
  · exact decide_eq_decide.2 eq_comm

/-- A predicate makes the same link read from right to left, but from the other end. -/
theorem JoinTree.link?_swapped (p : Predicate) :
    link? p.swapped = (link? p).map Prod.swap := by
  unfold link? Predicate.kind Predicate.swapped
  cases p.left.relation? with
  | none => cases p.right.relation? <;> rfl
  | some l =>
    cases p.right.relation? with
    | none => rfl
    | some r =>
      by_cases hlr : l.SameRelation r
      · have hrl : r.SameRelation l := Eq.symm hlr
        simp [hlr, hrl]
      · have hrl : ¬ r.SameRelation l := fun h => hlr (Eq.symm h)
        simp [hlr, hrl]

namespace Binding

section

variable {s s' : Scope} (h : s.relations.Perm s'.relations)
  (hn : (s.relations.map (·.name)).Nodup)

include h hn

theorem operand_perm {o : Operand} {t : Term} (ht : operand s o = .ok t) :
    operand s' o = .ok t := by
  cases o with
  | constant d => exact ht
  | attr n =>
    cases ha : s.resolve n with
    | error e => rw [operand, ha] at ht; cases ht
    | ok a =>
      rw [operand, ha] at ht
      rw [operand, Scope.resolve_perm h hn ha]
      exact ht

/-- The same comparison in the other scope is bound to the same predicate. -/
theorem predicateOf_same {c c' : Comparison} (hc : c.Same c') {p : Predicate}
    (hp : predicateOf s c = .ok p) : ∃ p', predicateOf s' c' = .ok p' ∧ p.Same p' := by
  obtain ⟨left, right⟩ := p
  obtain ⟨hl, hr, hsome⟩ := operands_of_predicateOf hp
  have hl := operand_perm h hn hl
  have hr := operand_perm h hn hr
  unfold predicateOf
  rcases hc with rfl | rfl
  · refine ⟨⟨left, right⟩, ?_, .inl rfl⟩
    rw [hl, hr]
    exact if_neg hsome
  · refine ⟨⟨right, left⟩, ?_, .inr rfl⟩
    rw [Bool.and_comm] at hsome
    rw [hl, hr]
    exact if_neg hsome

/-- So are the names of a select list, unless it asks for everything in the order of the scope. -/
theorem outputs_perm {names : List AttributeName} (hne : names ≠ []) {outs : List Term}
    (houts : outputs s names = .ok outs) : outputs s' names = .ok outs := by
  have hnonempty : ¬ names.isEmpty = true := by simpa using hne
  unfold outputs at houts ⊢
  rw [if_neg hnonempty] at houts ⊢
  cases hattributes : names.mapM s.resolve with
  | error e => rw [hattributes] at houts; cases houts
  | ok attributes =>
    have hall := (forall₂_of_mapM_eq_ok hattributes).imp fun _ _ => Scope.resolve_perm h hn
    rw [mapM_eq_ok_of_forall₂ hall]
    rw [hattributes] at houts
    exact houts

end

/-! ## Relations -/

/-- Relations that are there and are named once are bound. -/
theorem relations_of_lookup {catalog : Catalog} {bound new : List Schema} {names : List String}
    (h : List.Forall₂ (fun name r => catalog.lookup? name = some r) names new)
    (hn : ((bound ++ new).map (·.name)).Nodup) :
    relations catalog bound names = .ok (bound ++ new) := by
  induction h generalizing bound with
  | nil => rw [relations, List.append_nil]
  | @cons name r names new hr _ ih =>
    have hfresh : ¬ bound.any (·.SameRelation r) = true := by
      intro hany
      obtain ⟨q, hq, hqr⟩ := List.any_eq_true.1 hany
      rw [List.map_append, List.nodup_append] at hn
      exact hn.2.2 _ (List.mem_map_of_mem hq) _ (List.mem_map_of_mem List.mem_cons_self)
        (of_decide_eq_true hqr)
    have hrest := @ih (bound ++ [r]) (by rwa [List.append_assoc])
    rw [List.append_assoc] at hrest
    rw [relations, Catalog.lookup_eq_ok_iff.2 hr]
    exact (if_neg hfresh).trans hrest

/-- Relations that are named in another order are bound in that order. -/
theorem relations_perm {catalog : Catalog} {names names' : List String} (h : names.Perm names')
    {rs : List Schema} (hrs : relations catalog [] names = .ok rs) :
    ∃ rs', relations catalog [] names' = .ok rs' ∧ rs.Perm rs' := by
  obtain ⟨_, rfl, rfl, hlookup, hnodup⟩ := relations_eq_ok hrs
  have hall : List.Forall₂ (fun name r => catalog.lookup? name = some r)
      (rs.map (·.name)) rs :=
    List.forall₂_map_left_iff.2 (List.forall₂_same.2 hlookup)
  obtain ⟨rs', hall', hperm⟩ := List.perm_comp_forall₂ h.symm hall
  refine ⟨rs', relations_of_lookup hall' ?_, hperm.symm⟩
  exact ((hperm.map _).nodup_iff).2 (hnodup List.nodup_nil)

end Binding

/-! ## Join trees -/

namespace JoinTree

variable {α : Type} {things things' : List α} {es es' : List (α × α)}

/-- Links lead where they lead in whichever order and direction they are given. -/
theorem Linked.of_swaps (h : ∀ e ∈ es, ∃ e' ∈ es', e' = e ∨ e' = e.swap) {a b : α}
    (hab : Linked es a b) : Linked es' a b := by
  obtain ⟨w, hw, hs⟩ := hab
  induction hw with
  | here a => exact .refl _ a
  | @step a c b e w he _ ih =>
    obtain ⟨hmem, hs⟩ := List.cons_subset.1 hs
    obtain ⟨e', hmem', he'⟩ := h e hmem
    have hjoins : Joins e' a c := by
      rcases he with rfl | rfl <;> rcases he' with rfl | rfl
      · exact .inl rfl
      · exact .inr rfl
      · exact .inr rfl
      · exact .inl rfl
    have hac : Linked es' a c := ⟨[e'], .step hjoins (.here c), by simpa using hmem'⟩
    exact hac.trans (ih hs)

theorem SpanningTree.matched (hthings : things.Perm things')
    (h : Matched (fun e e' => e' = e ∨ e' = Prod.swap e) es es') (hs : SpanningTree things es) :
    SpanningTree things' es' := by
  obtain ⟨hlength, hlinked⟩ := hs
  refine ⟨?_, fun a ha b hb => ?_⟩
  · rw [← h.length_eq, ← hthings.length_eq]
    exact hlength
  · exact (hlinked a (hthings.symm.subset ha) b (hthings.symm.subset hb)).of_swaps
      fun e he => h.exists_mem he

theorem links_matched {ps ps' : List Predicate} (h : Matched Predicate.Same ps ps') :
    Matched (fun e e' => e' = e ∨ e' = Prod.swap e) (links ps) (links ps') := by
  refine h.filterMap fun p p' hp => ?_
  rcases hp with rfl | rfl
  · cases link? p' with
    | none => exact .none
    | some e => exact .some (.inl rfl)
  · rw [link?_swapped]
    cases link? p with
    | none => exact .none
    | some e => exact .some (.inr rfl)

/-- Relations and predicates have a tree if they have one in another order. -/
theorem exists_planOf_matched {db : Database} {rs rs' : List Schema} {ps ps' : List Predicate}
    (hperm : rs.Perm rs') (h : Matched Predicate.Same ps ps') (hn : (rs.map (·.name)).Nodup)
    (hb : ∀ p ∈ ps, BoundIn rs p.left ∧ BoundIn rs p.right)
    (hb' : ∀ p ∈ ps', BoundIn rs' p.left ∧ BoundIn rs' p.right) {plan : Plan}
    (hplan : planOf db rs (ps.filter (! ·.isJoin)) (edgesOf ps) = .ok plan) :
    ∃ plan', planOf db rs' (ps'.filter (! ·.isJoin)) (edgesOf ps') = .ok plan' := by
  have hends := fun e he => (ends_mem hb e he).imp
    (List.mem_map_of_mem (f := Schema.name)) (List.mem_map_of_mem (f := Schema.name))
  have hends' := fun e he => (ends_mem hb' e he).imp
    (List.mem_map_of_mem (f := Schema.name)) (List.mem_map_of_mem (f := Schema.name))
  have hne : rs ≠ [] := by
    rintro rfl
    cases hplan
  have hne' : rs' ≠ [] := fun heq => hne (List.perm_nil.1 (heq ▸ hperm))
  have htree := (exists_planOf_iff db _ hne hn hends).1 ⟨_, hplan⟩
  rw [← links_eq] at htree
  rw [exists_planOf_iff db _ hne' ((hperm.map _).nodup hn) hends', ← links_eq]
  exact htree.matched (hperm.map _) (links_matched h)

end JoinTree

/-! ## Queries -/

/-- The same query but for the order of its relations and comparisons and the sides of their
operands. -/
structure Query.Reorders (q q' : Query) : Prop where
  relations : q.relations.Perm q'.relations
  comparisons : Matched Comparison.Same q.comparisons q'.comparisons
  outputs : q.outputs = q'.outputs
  distinct : q.distinct = q'.distinct
  orderBy : q.orderBy = q'.orderBy

theorem Query.Reorders.symm {q q' : Query} (h : q.Reorders q') : q'.Reorders q where
  relations := h.relations.symm
  comparisons := by
    obtain ⟨cs, hall, hperm⟩ := h.comparisons.symm
    exact ⟨cs, hall.imp fun _ _ => Comparison.Same.symm, hperm⟩
  outputs := h.outputs.symm
  distinct := h.distinct.symm
  orderBy := h.orderBy.symm

namespace Binding

variable {db : Database} {q q' : Query}

/-- A query has a plan if it has one in another order. Both show the same, and the rows of both
products are the same in some order. -/
theorem planOf_reordered (h : q.Reorders q') (hne : q.outputs ≠ []) {plan : Plan}
    (hplan : planOf db q = .ok plan) : ∃ outs input input', plan = .project outs input
      ∧ planOf db q' = .ok (.project outs input')
      ∧ ((input.product db.store).map fun ts => outs.filterMap (·.among ts)).Perm
        ((input'.product db.store).map fun ts => outs.filterMap (·.among ts)) := by
  obtain ⟨rs, ps, outs, input, hrs, hps, houts, hdistinct, horder, hinput, rfl⟩ :=
    planOf_eq_ok_iff.1 hplan
  obtain ⟨rs', hrs', hperm⟩ := relations_perm h.relations hrs
  have hn : (rs.map (·.name)).Nodup := by
    obtain ⟨_, rfl, -, -, hnodup⟩ := relations_eq_ok hrs
    exact hnodup List.nodup_nil
  have hn' : (rs'.map (·.name)).Nodup := (hperm.map _).nodup hn
  have hscope : (Scope.mk rs).relations.Perm (Scope.mk rs').relations := hperm
  obtain ⟨ps', hps', hsame⟩ := h.comparisons.mapM
    (fun c c' p hc hp => predicateOf_same hscope hn hc hp) hps
  have houts' := outputs_perm hscope hn hne houts
  obtain ⟨hconstant, hbound, -⟩ := predicates_eq_ok hps
  obtain ⟨hconstant', hbound', -⟩ := predicates_eq_ok hps'
  obtain ⟨input', hinput'⟩ := JoinTree.exists_planOf_matched hperm hsame hn hbound hbound' hinput
  obtain ⟨-, hscans, htests⟩ := JoinTree.planOf_eq_ok hn hbound hconstant hinput
  obtain ⟨-, hscans', htests'⟩ := JoinTree.planOf_eq_ok hn' hbound' hconstant' hinput'
  refine ⟨outs, input, input', rfl, planOf_eq_ok_iff.2 ⟨rs', ps', outs, input', hrs', hps',
    h.outputs ▸ houts', h.distinct ▸ hdistinct, h.orderBy ▸ horder, hinput', rfl⟩, ?_⟩
  have htests : ∀ ts, input.tests.all (·.holdsAmong ts) = input'.tests.all (·.holdsAmong ts) := by
    intro ts
    rw [htests, htests', hsame.all_eq fun p p' hp => hp.holdsAmong ts]
  refine (Plan.product_perm hscans hn).trans (List.Perm.trans (.of_eq ?_)
    (Plan.product_perm (hscans'.trans hperm.symm) hn).symm)
  simp only [htests]

end Binding

/-! ## Running reordered queries -/

namespace Session

variable {db : Database} {n : Nat} {q q' : Query} {statement statement' : Statement}

/-- What a query gives that succeeds, its reordering gives in some order. -/
theorem Statement.run_reordered (hserved : db.Served) (h : q.Reorders q') (hne : q.outputs ≠ [])
    (hq : statement.request? = .ok (.select q)) (hq' : statement'.request? = .ok (.select q'))
    {j : Log.Journal} {result : Result} (hok : statement.run.result db j = .ok result)
    (j' : Log.Journal) : ∃ result', statement'.run.result db j' = .ok result'
      ∧ result'.outcome.columns = result.outcome.columns
      ∧ result'.outcome.rows.Perm result.outcome.rows := by
  cases hplan : Binding.planOf db q with
  | error e =>
    rw [Statement.run_select_of_error hserved hq hplan] at hok
    cases hok
  | ok plan =>
    obtain ⟨outs, input, input', rfl, hplan', hperm⟩ := Binding.planOf_reordered h hne hplan
    rw [Statement.run_select hserved hq hplan] at hok
    cases hok
    exact ⟨_, Statement.run_select hserved hq' hplan' j', rfl, hperm.symm⟩

/-- In an `Attained` state with `FitsRows`, the order in which a query with a select list is written
(`Reorders`) has no part in whether it succeeds, in its columns, or in its rows up to their order. A
record that cannot be read back would be met or not, depending on which relation is read first. -/
theorem Attained.select_reordered (h : Attained Request.FitsRows n db) (hreorders : q.Reorders q')
    (hne : q.outputs ≠ []) (hq : statement.request? = .ok (.select q))
    (hq' : statement'.request? = .ok (.select q')) (j j' : Log.Journal) :
    ((∃ result, statement.run.result db j = .ok result)
        ↔ ∃ result', statement'.run.result db j' = .ok result')
      ∧ ∀ result result', statement.run.result db j = .ok result →
        statement'.run.result db j' = .ok result' →
          result'.outcome.columns = result.outcome.columns
            ∧ result'.outcome.rows.Perm result.outcome.rows := by
  have hserved := h.intact.served
  have hne' : q'.outputs ≠ [] := hreorders.outputs ▸ hne
  refine ⟨⟨?_, ?_⟩, fun result result' hok hok' => ?_⟩
  · rintro ⟨result, hok⟩
    exact (Statement.run_reordered hserved hreorders hne hq hq' hok j').imp fun _ => And.left
  · rintro ⟨result', hok'⟩
    exact (Statement.run_reordered hserved hreorders.symm hne' hq' hq hok' j).imp fun _ => And.left
  · obtain ⟨_, hsame, hshown⟩ := Statement.run_reordered hserved hreorders hne hq hq' hok j'
    rw [hok'] at hsame
    cases hsame
    exact hshown

/-- The numbers of the second relation that are also in the first, asked for the other way. -/
def commonExchanged : Query where
  relations := ["a", "b"]
  comparisons := [⟨.attr ⟨some "b", "n"⟩, .attr ⟨some "a", "n"⟩⟩]
  outputs := [⟨some "b", "n"⟩]
  distinct := false
  orderBy := none

theorem reorders_common : common.Reorders commonExchanged where
  relations := .swap ..
  comparisons := ⟨_, .cons (.inr rfl) .nil, .refl _⟩
  outputs := rfl
  distinct := rfl
  orderBy := rfl

theorem select_reordered_common :
    ∃ result, (Statement.request (.select commonExchanged)).run.result withSevens [] = .ok result
      ∧ result.outcome.columns = ["b.n"] ∧ result.outcome.rows.Perm [[.int 7], [.int 7]] := by
  obtain ⟨n, h⟩ := (reachable_withSevens.mono fun _ => Request.Fits.rows).exists_attained
  have hserved := h.intact.served
  have hplan : Binding.planOf withSevens common = .ok (Operator.commonNumbers .hash) := by
    have hquery : (Binding.query withSevens common).result .empty []
        = .ok (Operator.commonNumbers .hash) := by decide +kernel
    rwa [query_gives_of_served hserved common] at hquery
  have hcommon : (Statement.request (.select common)).run.result withSevens []
      = .ok ⟨⟨["b.n"], [[.int 7], [.int 7]], 0⟩, true⟩ :=
    Statement.run_select hserved rfl hplan []
  obtain ⟨hiff, hsame⟩ := h.select_reordered reorders_common (List.cons_ne_nil _ _)
    (rfl : (Statement.request (.select common)).request? = _)
    (rfl : (Statement.request (.select commonExchanged)).request? = _) [] []
  obtain ⟨result, hok⟩ := hiff.1 ⟨_, hcommon⟩
  exact ⟨result, hok, hsame _ _ hcommon hok⟩

theorem reorders_numbersInTexts : numbersInTexts.Reorders numbersInTextsExchanged where
  relations := .refl _
  comparisons := ⟨_, .cons (.inr rfl) .nil, .refl _⟩
  outputs := rfl
  distinct := rfl
  orderBy := rfl

/-- A text that does not fit its record makes the operands differ: one way the loop has no number to
begin with, the other way it begins with the text. -/
theorem reordered_unreadable :
    (∃ n, Attained (fun _ => True) n (withText (longText (2 ^ 32))))
      ∧ numbersInTexts.Reorders numbersInTextsExchanged ∧ numbersInTexts.outputs ≠ []
      ∧ (∃ result, (Statement.request (.select numbersInTexts)).run.result
          (withText (longText (2 ^ 32))) [] = .ok result)
      ∧ ∃ e, (Statement.request (.select numbersInTextsExchanged)).run.result
          (withText (longText (2 ^ 32))) [] = .error e ∧ e.IsStorageFault :=
  ⟨exists_attained_withText _, reorders_numbersInTexts, List.cons_ne_nil _ _,
    ⟨_, run_numbersInTexts _ []⟩, run_numbersInTextsExchanged (longText_not_fits le_rfl) []⟩

end Session

end RelQuery
