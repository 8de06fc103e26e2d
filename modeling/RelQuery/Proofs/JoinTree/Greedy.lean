/-
  Join trees are grown greedily, to the left: what can be read off the tree of a query, with the
  order of its predicates.

  A tree is a chain of joins with a scan on the right of each. A predicate on one relation stands
  in the scan of that relation and nowhere else, a predicate between two labels one join, read
  from the relations that are joined by then to the new one. Each join takes the first predicate
  left that is on one of those relations. The strategies of the joins have no part in this.

  Main statement: `Plan.IsGreedyTree` says it of one plan, and holds of every plan that is built
  (`build_isGreedyTree`). One step of the growth is `Growing.next`, all of it `Growing.grow`.
-/
import RelQuery.Proofs.JoinTree.Plan

namespace RelQuery

/-- The term is an attribute of one of these relations. -/
def Term.IsOf (rs : List Schema) (t : Term) : Prop :=
  ∃ r, t.relation? = some r ∧ r.name ∈ rs.map (·.name)

/-- The predicate is on one of these relations, perhaps among others. -/
def Predicate.Touches (rs : List Schema) (p : Predicate) : Prop := p.left.IsOf rs ∨ p.right.IsOf rs

/-- The label is the predicate, read in either direction. -/
def Predicate.Labels (label p : Predicate) : Prop := label = p ∨ label = p.swapped

namespace Plan

/-! ## Chains of joins -/

/-- The scans of a plan, left to right, with their filters. -/
def leaves : Plan → List (Schema × List Predicate)
  | scan r filter => [(r, filter)]
  | join _ _ left right => left.leaves ++ right.leaves
  | project _ input => input.leaves
  | _ => []

/-- The predicates of the joins of a plan, those of its inputs first. -/
def labels : Plan → List Predicate
  | join _ on left right => left.labels ++ right.labels ++ [on]
  | project _ input => input.labels
  | _ => []

/-- There is a scan on the right of each join. -/
inductive LeftDeep : Plan → Prop
  | scan (r : Schema) (filter : List Predicate) : LeftDeep (.scan r filter)
  | join {strategy : JoinStrategy} {on : Predicate} {left : Plan} (r : Schema)
    (filter : List Predicate) (h : LeftDeep left) :
    LeftDeep (.join strategy on left (.scan r filter))

/-- The left term of each join is of a relation on the left of it, the right term of one on the
right. -/
def Oriented : Plan → Prop
  | join _ on left right =>
    left.Oriented ∧ right.Oriented ∧ on.left.IsOf left.scans ∧ on.right.IsOf right.scans
  | _ => True

/-- The plan was grown along some of the join predicates, and the last ones are left: the first
predicate labels the innermost join as it is, and each further join takes the first predicate
left that is on a relation scanned by then. -/
inductive Greedy (joins : List Predicate) : Plan → List Predicate → Prop
  | alone {r : Schema} {filter : List Predicate} (h : joins = []) :
    Greedy joins (.scan r filter) []
  | first {strategy : JoinStrategy} {p : Predicate} {unused : List Predicate} {r s : Schema}
    {f g : List Predicate} (h : joins = p :: unused) :
    Greedy joins (.join strategy p (.scan r f) (.scan s g)) unused
  | next {strategy : JoinStrategy} {plan : Plan} {label p : Predicate}
    {before after : List Predicate} {r : Schema} {filter : List Predicate}
    (h : Greedy joins plan (before ++ p :: after))
    (hbefore : ∀ q ∈ before, ¬ q.Touches plan.scans) (hp : p.Touches plan.scans)
    (hlabel : label.Labels p) :
    Greedy joins (.join strategy label plan (.scan r filter)) (before ++ after)

/-- A plan that was grown over relations along all join predicates. -/
structure IsGreedyTree (relations : List Schema) (predicates : List Predicate) (plan : Plan) :
    Prop where
  leftDeep : plan.LeftDeep
  /-- Every relation is scanned once. -/
  scanned : plan.scans.Perm relations
  /-- A scan has the predicates of its relation, in their order. -/
  filtered : ∀ leaf ∈ plan.leaves, leaf.2 = predicates.filter (·.scans leaf.1)
  /-- Every predicate that joins nothing stands in one scan, once. -/
  placed : (plan.leaves.flatMap (·.2)).Perm (predicates.filter (! ·.isJoin))
  /-- Every join predicate labels one join. -/
  labelled : ∃ taken, taken.Perm (predicates.filter (·.isJoin))
    ∧ List.Forall₂ Predicate.Labels plan.labels taken
  oriented : plan.Oriented
  greedy : plan.Greedy (predicates.filter (·.isJoin)) []

theorem scans_eq_map_leaves (p : Plan) : p.scans = p.leaves.map (·.1) := by
  induction p with
  | scan r filter => rfl
  | join strategy on left right ihl ihr => rw [scans, leaves, List.map_append, ihl, ihr]
  | project outputs input ih => exact ih
  | create | drop | showTables | insert | explain => rfl

theorem LeftDeep.length_scans {p : Plan} (h : p.LeftDeep) :
    p.scans.length = p.labels.length + 1 := by
  induction h with
  | scan r filter => rfl
  | @join strategy on left r filter h ih =>
    rw [scans, labels, List.length_append, List.length_append, List.length_append, ih]
    rfl

/-- The labels of a plan and what is left over are all join predicates. -/
theorem Greedy.labelled {joins unused : List Predicate} {p : Plan} (h : p.Greedy joins unused) :
    ∃ taken, (taken ++ unused).Perm joins ∧ List.Forall₂ Predicate.Labels p.labels taken := by
  induction h with
  | alone h =>
    subst h
    exact ⟨[], .refl _, .nil⟩
  | @first strategy p unused r s f g h =>
    subst h
    exact ⟨[p], .refl _, .cons (.inl rfl) .nil⟩
  | @next strategy plan label p before after r filter h hbefore hp hlabel ih =>
    obtain ⟨taken, hperm, hlabels⟩ := ih
    refine ⟨taken ++ [p], .trans ?_ hperm, ?_⟩
    · have hmiddle : (p :: (before ++ after)).Perm (before ++ p :: after) := List.perm_middle.symm
      rw [List.append_assoc]
      exact hmiddle.append_left taken
    · have hscan : (Plan.scan r filter).labels = [] := rfl
      rw [labels, hscan, List.append_nil]
      exact List.rel_append hlabels (.cons hlabel .nil)

end Plan

/-! ## Where predicates belong -/

/-- What belongs to a scan does not join. -/
theorem Predicate.isJoin_of_scans {p : Predicate} {r : Schema} (h : p.scans r = true) :
    p.isJoin = false := by
  unfold Predicate.scans at h
  unfold Predicate.isJoin
  split at h
  · rename_i s hkind
    rw [hkind]
  · cases h

/-- What belongs to two scans belongs to scans of one relation. -/
theorem Predicate.sameRelation_of_both_scans {p : Predicate} {r q : Schema} (hr : p.scans r = true)
    (hq : p.scans q = true) : r.SameRelation q := by
  unfold Predicate.scans at hr hq
  split at hr
  · rename_i s hkind
    rw [hkind] at hq
    exact Eq.trans (Eq.symm (of_decide_eq_true hr)) (of_decide_eq_true hq)
  · cases hr

/-- Things sorted into classes, each into one of them, are still the same things. -/
theorem flatMap_filter_perm {α β : Type} {classes : List α} {things : List β} {p : β → α → Bool}
    (h : ∀ b ∈ things, ∃ before a after, classes = before ++ a :: after ∧ p b a = true
      ∧ ∀ c ∈ before ++ after, p b c = false) :
    (classes.flatMap fun a => things.filter (p · a)).Perm things := by
  induction things with
  | nil => simp
  | cons b things ih =>
    obtain ⟨hb, hrest⟩ := List.forall_mem_cons.1 h
    obtain ⟨before, a, after, rfl, ha, hothers⟩ := hb
    have hother : ∀ cs ⊆ before ++ after,
        (cs.flatMap fun c => (b :: things).filter (p · c))
          = cs.flatMap fun c => things.filter (p · c) := by
      intro cs hcs
      refine List.flatMap_congr fun c hc => ?_
      rw [List.filter_cons_of_neg (by rw [hothers c (hcs hc)]; exact Bool.false_ne_true)]
    have ih := ih hrest
    rw [List.flatMap_append, List.flatMap_cons] at ih ⊢
    have hhere : ((b :: things).filter fun x => p x a) = b :: things.filter fun x => p x a :=
      List.filter_cons_of_pos ha
    rw [hother before (List.subset_append_left ..), hother after (List.subset_append_right ..),
      hhere]
    exact List.perm_middle.trans (ih.cons b)

namespace JoinTree

/-! ## Growing -/

theorem Edge.touches_iff {joined : List Schema} {d : Edge} :
    d.predicate.Touches joined
      ↔ isJoined joined d.left = true ∨ isJoined joined d.right = true := by
  have hof : ∀ {t : Term} {r : Schema}, t.relation? = some r →
      (t.IsOf joined ↔ isJoined joined r = true) := by
    intro t r hr
    rw [isJoined_iff, Term.IsOf, hr]
    constructor
    · rintro ⟨q, hq, hmem⟩
      cases hq
      exact hmem
    · exact fun hmem => ⟨r, rfl, hmem⟩
  exact or_congr (hof d.relations.1) (hof d.relations.2.1)

theorem ofPredicate?_eq_none {p : Predicate} (h : p.isJoin = false) :
    Edge.ofPredicate? p = none := by
  unfold Edge.ofPredicate?
  split
  · rename_i l r hkind
    rw [Predicate.isJoin, hkind] at h
    cases h
  · rfl

theorem map_predicate_edgesOf (predicates : List Predicate) :
    (edgesOf predicates).map (·.predicate) = predicates.filter (·.isJoin) := by
  induction predicates with
  | nil => rfl
  | cons p predicates ih =>
    have hcons : edgesOf (p :: predicates)
        = (Edge.ofPredicate? p).toList ++ edgesOf predicates := by
      rw [edgesOf, List.filterMap_cons]
      cases Edge.ofPredicate? p <;> rfl
    rw [hcons, List.map_append, ih, List.filter_cons]
    cases hj : p.isJoin with
    | true =>
      obtain ⟨e, he, rfl⟩ := exists_ofPredicate? hj
      rw [he]
      rfl
    | false => rw [ofPredicate?_eq_none hj]; rfl

/-- A tree over some of the relations that was grown along some of the join predicates; the edges
of the others are left. -/
structure Growing (relations : List Schema) (predicates : List Predicate) (plan : Plan)
    (edges : List Edge) : Prop where
  leftDeep : plan.LeftDeep
  distinct : (plan.scans.map (·.name)).Nodup
  known : plan.scans ⊆ relations
  ends : ∀ d ∈ edges, d.left ∈ relations ∧ d.right ∈ relations
  filtered : ∀ leaf ∈ plan.leaves, leaf.2 = predicates.filter (·.scans leaf.1)
  oriented : plan.Oriented
  greedy : plan.Greedy (predicates.filter (·.isJoin)) (edges.map (·.predicate))

section

variable {relations : List Schema} {predicates : List Predicate} {plan : Plan} {edges : List Edge}

/-- The predicates that belong to a scan are none of those that join. -/
theorem filter_scans (predicates : List Predicate) (r : Schema) :
    predicates.filter (·.scans r) = (predicates.filter (! ·.isJoin)).filter (·.scans r) := by
  rw [List.filter_filter]
  refine List.filter_congr fun p _ => ?_
  cases h : p.scans r with
  | false => rfl
  | true => rw [Predicate.isJoin_of_scans h]; rfl

/-- The filter of a scan is the list of the predicates of its relation. -/
theorem filtered_scan (predicates : List Predicate) (r : Schema) :
    ∀ leaf ∈ (scan (predicates.filter (! ·.isJoin)) r).leaves,
      leaf.2 = predicates.filter (·.scans leaf.1) := by
  intro leaf hleaf
  obtain rfl := List.mem_singleton.1 hleaf
  exact (filter_scans predicates r).symm

theorem Growing.alone {r : Schema} (hr : r ∈ relations)
    (hjoins : predicates.filter (·.isJoin) = []) :
    Growing relations predicates (scan (predicates.filter (! ·.isJoin)) r) [] where
  leftDeep := .scan ..
  distinct := by simp [scan, Plan.scans]
  known := by simpa [scan, Plan.scans] using hr
  ends := List.forall_mem_nil _
  filtered := filtered_scan predicates r
  oriented := trivial
  greedy := .alone hjoins

theorem Growing.first {e : Edge} {strategy : JoinStrategy}
    (hends : ∀ d ∈ e :: edges, d.left ∈ relations ∧ d.right ∈ relations)
    (hjoins : predicates.filter (·.isJoin) = (e :: edges).map (·.predicate)) :
    Growing relations predicates (.join strategy e.predicate
      (scan (predicates.filter (! ·.isJoin)) e.left)
      (scan (predicates.filter (! ·.isJoin)) e.right)) edges where
  leftDeep := .join _ _ (.scan ..)
  distinct := by simpa [scan, Plan.scans] using e.relations.2.2
  known := by
    have hfirst := hends e List.mem_cons_self
    simpa [scan, Plan.scans] using hfirst
  ends := (List.forall_mem_cons.1 hends).2
  filtered := List.forall_mem_append.2 ⟨filtered_scan predicates _, filtered_scan predicates _⟩
  oriented := ⟨trivial, trivial, ⟨e.left, e.relations.1, by simp [scan, Plan.scans]⟩,
    ⟨e.right, e.relations.2.1, by simp [scan, Plan.scans]⟩⟩
  greedy := .first hjoins

/-- An edge that is picked makes the tree grow by one join. -/
theorem Growing.next (h : Growing relations predicates plan edges) {e : Edge} {rest : List Edge}
    (hpick : pick plan.scans edges = .ok (some (e, rest))) (strategy : JoinStrategy) :
    Growing relations predicates (.join strategy e.predicate plan
      (scan (predicates.filter (! ·.isJoin)) e.right)) rest := by
  obtain ⟨before, d, after, rfl, rfl, hbefore, hw, hl, hr⟩ := exists_split_of_pick hpick
  have hscans : ∀ strategy on r f, (Plan.join strategy on plan (.scan r f)).scans
      = plan.scans ++ [r] := fun _ _ _ _ => rfl
  have hright : e.right ∈ relations := (hw.ends (h.ends d (by simp))).2
  refine
    { leftDeep := .join _ _ h.leftDeep
      distinct := ?_
      known := ?_
      ends := fun c hc => h.ends c ?_
      filtered := List.forall_mem_append.2 ⟨h.filtered, filtered_scan predicates _⟩
      oriented := ?_
      greedy := ?_ }
  · exact nodup_names_append h.distinct hr
  · rw [scan, hscans, List.append_subset]
    exact ⟨h.known, List.cons_subset.2 ⟨hright, List.nil_subset _⟩⟩
  · rcases List.mem_append.1 hc with hc | hc
    · exact List.mem_append_left _ hc
    · exact List.mem_append_right _ (List.mem_cons_of_mem _ hc)
  · exact ⟨h.oriented, trivial, ⟨e.left, e.relations.1, isJoined_iff.1 hl⟩,
      ⟨e.right, e.relations.2.1, by simp [scan, Plan.scans]⟩⟩
  · have hgreedy := h.greedy
    rw [List.map_append, List.map_cons] at hgreedy
    rw [List.map_append]
    refine .next hgreedy ?_ ?_ ?_
    · intro q hq
      obtain ⟨c, hc, rfl⟩ := List.mem_map.1 hq
      rw [Edge.touches_iff, (hbefore c hc).1, (hbefore c hc).2]
      simp
    · rw [Edge.touches_iff]
      rcases hw with rfl | rfl
      · exact .inl hl
      · exact .inr hl
    · rcases hw with rfl | rfl
      · exact .inl rfl
      · exact .inr rfl

/-- Joining along an edge puts some join above the plan. -/
theorem exists_strategy_of_joinOn {db : Database} {filters : List Predicate} {left plan : Plan}
    {e : Edge} {l : Store.Layout} {j : Log.Journal}
    (h : (joinOn db filters left e).result l j = .ok plan) :
    ∃ strategy, plan = .join strategy e.predicate left (scan filters e.right) := by
  obtain ⟨strategy, m, k, -, hplan⟩ := Reading.exists_of_bind h
  cases hplan
  exact ⟨strategy, rfl⟩

/-- A tree that has stopped growing has no edges left. -/
theorem Growing.grow {db : Database} {plan' : Plan} {l : Store.Layout} {j : Log.Journal}
    (h : Growing relations predicates plan edges)
    (hgrow : (grow db (predicates.filter (! ·.isJoin)) plan.scans plan edges).result l j
      = .ok plan') : Growing relations predicates plan' [] := by
  generalize hjoined : plan.scans = joined at hgrow
  fun_induction chain joined edges generalizing plan l j with
  | case1 joined edges hempty =>
    rw [JoinTree.grow, if_pos hempty] at hgrow
    cases hgrow
    rwa [List.isEmpty_iff.1 hempty] at h
  | case2 joined edges hne err hp =>
    rw [grow_eq hne, hp] at hgrow
    cases hgrow
  | case3 joined edges hne hp =>
    rw [grow_eq hne, hp] at hgrow
    cases hgrow
  | case4 joined edges hne e rest hp _ ih =>
    rw [grow_eq hne, hp] at hgrow
    obtain ⟨bigger, m, k, hjoin, hgrow⟩ := Reading.exists_of_bind hgrow
    obtain ⟨strategy, rfl⟩ := exists_strategy_of_joinOn hjoin
    subst hjoined
    exact ih (h.next hp strategy) rfl hgrow

end

/-! ## Whole trees -/

section

variable {relations : List Schema} {predicates : List Predicate} {plan : Plan}

/-- A plan that is built is a tree that has stopped growing, with one relation more than edges. -/
theorem growing_of_build {db : Database} {l : Store.Layout} {j : Log.Journal}
    (hends : ∀ d ∈ edgesOf predicates, d.left ∈ relations ∧ d.right ∈ relations)
    (h : (build db relations predicates).result l j = .ok plan) :
    Growing relations predicates plan [] ∧ (edgesOf predicates).length + 1 = relations.length := by
  have hjoins := map_predicate_edgesOf predicates
  have hedges : predicates.filterMap Edge.ofPredicate? = edgesOf predicates := rfl
  unfold build at h
  cases hconstant : (predicates.filter (! ·.isJoin)).find?
      (fun p => p.left.relation?.isNone && p.right.relation?.isNone) with
  | some p =>
    simp only [hconstant] at h
    cases h
  | none =>
    simp only [hconstant, hedges] at h
    obtain ⟨_, m, k, hcheck, h⟩ := Reading.exists_of_bind h
    rw [Reading.result_ofExcept] at hcheck
    have hlen := length_of_checkCount hcheck
    refine ⟨?_, hlen⟩
    cases hedges : edgesOf predicates with
    | nil =>
      rw [hedges] at hjoins hlen h
      cases relations with
      | nil => simp at hlen
      | cons r relations =>
        cases h
        exact .alone List.mem_cons_self hjoins.symm
    | cons e edges =>
      rw [hedges] at hends hjoins h
      obtain ⟨bottom, m', k', hjoin, hgrow⟩ := Reading.exists_of_bind h
      obtain ⟨strategy, rfl⟩ := exists_strategy_of_joinOn hjoin
      exact (Growing.first hends hjoins.symm).grow hgrow

/-- A tree that has stopped growing over as many relations as there are has all of them. -/
theorem Growing.scanned (h : Growing relations predicates plan [])
    (hlen : (edgesOf predicates).length + 1 = relations.length) : plan.scans.Perm relations := by
  obtain ⟨taken, htaken, hlabels⟩ := h.greedy.labelled
  rw [List.map_nil, List.append_nil] at htaken
  refine (List.subperm_of_subset h.distinct.of_map h.known).perm_of_length_le (Nat.le_of_eq ?_)
  rw [← hlen, h.leftDeep.length_scans, hlabels.length_eq, htaken.length_eq,
    ← map_predicate_edgesOf, List.length_map]

/-- In a tree of all relations the scans have all predicates that do not join. -/
theorem Growing.placed (h : Growing relations predicates plan [])
    (hscanned : plan.scans.Perm relations)
    (hb : ∀ p ∈ predicates, BoundIn relations p.left ∧ BoundIn relations p.right)
    (hc : ∀ p ∈ predicates, p.kind ≠ .constant) :
    (plan.leaves.flatMap (·.2)).Perm (predicates.filter (! ·.isJoin)) := by
  have hfilters : plan.leaves.flatMap (·.2)
      = plan.scans.flatMap fun r => (predicates.filter (! ·.isJoin)).filter (·.scans r) := by
    rw [Plan.scans_eq_map_leaves, List.flatMap_map]
    exact List.flatMap_congr fun leaf hleaf => by
      rw [h.filtered leaf hleaf, filter_scans]
  rw [hfilters]
  refine flatMap_filter_perm fun p hp => ?_
  obtain ⟨hp, hj⟩ := List.mem_filter.1 hp
  obtain ⟨r, hr, hscans⟩ := exists_scans (hb p hp) (hc p hp) (by simpa using hj)
  obtain ⟨before, after, hsplit⟩ := List.append_of_mem (hscanned.symm.subset hr)
  refine ⟨before, r, after, hsplit, hscans, fun q hq => ?_⟩
  rw [← Bool.not_eq_true]
  intro hscans'
  have hname : r.name = q.name := Predicate.sameRelation_of_both_scans hscans hscans'
  have hmiddle : plan.scans.Perm (r :: (before ++ after)) := hsplit ▸ List.perm_middle
  have hdistinct := (hmiddle.map (·.name)).nodup_iff.1 h.distinct
  rw [List.map_cons, List.nodup_cons] at hdistinct
  exact hdistinct.1 (hname ▸ List.mem_map_of_mem hq)

/-- What `build` gives is a greedy tree (`IsGreedyTree`), whatever the database, its settings and
the strategies that are chosen. -/
theorem build_isGreedyTree {db : Database} {l : Store.Layout} {j : Log.Journal}
    (hb : ∀ p ∈ predicates, BoundIn relations p.left ∧ BoundIn relations p.right)
    (hc : ∀ p ∈ predicates, p.kind ≠ .constant)
    (h : (build db relations predicates).result l j = .ok plan) :
    plan.IsGreedyTree relations predicates := by
  obtain ⟨hgrowing, hlen⟩ := growing_of_build (ends_mem hb) h
  have hscanned := hgrowing.scanned hlen
  obtain ⟨taken, htaken, hlabels⟩ := hgrowing.greedy.labelled
  rw [List.map_nil, List.append_nil] at htaken
  exact
    { leftDeep := hgrowing.leftDeep
      scanned := hscanned
      filtered := hgrowing.filtered
      placed := hgrowing.placed hscanned hb hc
      labelled := ⟨taken, htaken, hlabels⟩
      oriented := hgrowing.oriented
      greedy := hgrowing.greedy }

/-- The second of two joins takes its predicate from right to left. -/
theorem row_isGreedyTree :
    (Plan.join .nestedLoop ⟨.number "b", .number "c"⟩
      (.join .nestedLoop ⟨.number "a", .number "b"⟩ (.scan (.numbers "a") [])
        (.scan (.numbers "b") [])) (.scan (.numbers "c") [])).IsGreedyTree
      [.numbers "a", .numbers "b", .numbers "c"]
      [⟨.number "a", .number "b"⟩, ⟨.number "c", .number "b"⟩] := by
  refine @build_isGreedyTree _ _ _ default default default ?_ ?_ ?_
  · simp [BoundIn, Term.number, Schema.numbers, Schema.arity]
  · simp [Predicate.kind, Term.relation?, Term.number, Schema.SameRelation, Schema.numbers]
  · decide +kernel

end

end JoinTree

end RelQuery
