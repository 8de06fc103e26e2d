/-
  The plan of a join tree: it scans the relations of the query, each once, and tests what the
  query's predicates say, whichever edge was walked first and in which direction.

  Main statement: `planOf_eq_ok`.
-/
import RelQuery.Proofs.JoinTree.Build
import RelQuery.Proofs.Plan.Product
import Mathlib.Data.List.Nodup

namespace RelQuery.JoinTree

/-! ## Chains -/

/-- Each edge leads from the relations joined by then to a new one. -/
def Attached (joined : List Schema) : List Edge → Prop
  | [] => True
  | e :: es => e.left ∈ joined ∧ isJoined joined e.right = false
    ∧ Attached (joined ++ [e.right]) es

theorem Attached.names_nodup {joined : List Schema} {es : List Edge} (h : Attached joined es)
    (hn : (joined.map (·.name)).Nodup) : ((joined ++ es.map (·.right)).map (·.name)).Nodup := by
  induction es generalizing joined with
  | nil => simpa using hn
  | cons e es ih =>
    obtain ⟨-, hfresh, hrest⟩ := h
    have hall := ih hrest (nodup_names_append hn hfresh)
    rwa [List.append_assoc] at hall

/-- Relations of one list with different names are told apart by name. -/
theorem eq_of_sameRelation {relations : List Schema} (hn : (relations.map (·.name)).Nodup)
    {r q : Schema} (hr : r ∈ relations) (hq : q ∈ relations) (h : r.SameRelation q) : r = q :=
  List.inj_on_of_nodup_map hn hr hq h

theorem Edge.Walks.ends {relations : List Schema} {e d : Edge} (h : e.Walks d)
    (hd : d.left ∈ relations ∧ d.right ∈ relations) : e.left ∈ relations ∧ e.right ∈ relations := by
  rcases h with rfl | rfl
  · exact hd
  · exact hd.symm

theorem mem_of_isJoined {relations joined : List Schema} {r : Schema}
    (hn : (relations.map (·.name)).Nodup) (hj : joined ⊆ relations) (hr : r ∈ relations)
    (h : isJoined joined r = true) : r ∈ joined := by
  obtain ⟨q, hq, hname⟩ := List.mem_map.1 (isJoined_iff.1 h)
  rwa [← eq_of_sameRelation hn (hj hq) hr hname]

theorem attached_of_chain {relations joined : List Schema} {edges es : List Edge}
    (h : chain joined edges = .ok es) (hn : (relations.map (·.name)).Nodup)
    (hj : joined ⊆ relations) (hends : ∀ e ∈ edges, e.left ∈ relations ∧ e.right ∈ relations) :
    Attached joined es := by
  fun_induction chain joined edges generalizing es with
  | case1 joined edges hempty =>
    cases h
    trivial
  | case2 | case3 => cases h
  | case4 joined edges hne e rest hp _ ih =>
    cases hc : chain (joined ++ [e.right]) rest with
    | error err => rw [hc] at h; cases h
    | ok es' =>
      rw [hc] at h
      cases h
      obtain ⟨d, hperm, hw, hl, hr⟩ := pick_eq_some hp
      have he := hw.ends (hends d (hperm.symm.subset List.mem_cons_self))
      refine ⟨mem_of_isJoined hn hj he.1 hl, hr, ih hc ?_ fun c hc => ?_⟩
      · exact List.append_subset.2 ⟨hj, by simpa using he.2⟩
      · exact hends c (hperm.symm.subset (List.mem_cons_of_mem _ hc))

/-- A plan is that of a chain of edges from some relation, one edge for each join predicate. -/
theorem exists_chain {db : Database} {relations : List Schema} {filters : List Predicate}
    {edges : List Edge} {plan : Plan} (h : planOf db relations filters edges = .ok plan)
    (hn : (relations.map (·.name)).Nodup)
    (hends : ∀ e ∈ edges, e.left ∈ relations ∧ e.right ∈ relations) :
    ∃ r ∈ relations, ∃ es taken, plan = es.foldl (joinTo db filters) (scan filters r)
      ∧ Attached [r] es ∧ List.Forall₂ Edge.Walks es taken ∧ taken.Perm edges
      ∧ edges.length + 1 = relations.length := by
  unfold planOf at h
  cases hcheck : checkCount relations.length edges.length with
  | error err => rw [hcheck] at h; cases h
  | ok u =>
    rw [hcheck] at h
    have hlen := length_of_checkCount hcheck
    cases relations with
    | nil => cases h
    | cons r relations =>
      cases edges with
      | nil =>
        cases h
        exact ⟨r, List.mem_cons_self, [], [], rfl, trivial, .nil, .refl _, hlen⟩
      | cons e edges =>
        have h : (chain [e.left, e.right] edges).map (fun es =>
            (e :: es).foldl (joinTo db filters) (scan filters e.left)) = .ok plan := h
        cases hc : chain [e.left, e.right] edges with
        | error err => rw [hc] at h; cases h
        | ok es =>
          rw [hc] at h
          cases h
          obtain ⟨taken, hperm, hwalks⟩ := chain_eq_ok hc
          have hfresh : isJoined [e.left] e.right = false := by
            rw [← Bool.not_eq_true, isJoined_iff, List.map_singleton, List.mem_singleton]
            exact Ne.symm e.relations.2.2
          obtain ⟨hfirst, hrest⟩ := List.forall_mem_cons.1 hends
          refine ⟨e.left, hfirst.1, e :: es, e :: taken, rfl, ?_, .cons (.inl rfl) hwalks,
            hperm.cons e, hlen⟩
          refine ⟨List.mem_singleton_self _, hfresh, attached_of_chain hc hn ?_ hrest⟩
          simpa using hfirst

/-! ## Plans along chains -/

section

variable {db : Database} {filters : List Predicate}

theorem scans_foldl (plan : Plan) (es : List Edge) :
    (es.foldl (joinTo db filters) plan).scans = plan.scans ++ es.map (·.right) := by
  induction es generalizing plan with
  | nil => simp
  | cons e es ih =>
    rw [List.foldl_cons, ih, joinTo, Plan.scans, scan, Plan.scans, List.map_cons, List.append_assoc]
    rfl

theorem mem_tests_foldl {plan : Plan} {es : List Edge} {t : Predicate} :
    t ∈ (es.foldl (joinTo db filters) plan).tests ↔ t ∈ plan.tests
      ∨ ∃ e ∈ es, t = e.predicate ∨ t ∈ filters.filter (·.scans e.right) := by
  induction es generalizing plan with
  | nil => simp
  | cons e es ih =>
    rw [List.foldl_cons, ih, joinTo, Plan.tests, scan, Plan.tests, List.exists_mem_cons_iff]
    simp only [List.mem_cons, List.mem_append, or_assoc, or_left_comm]

/-- The plan scans what is joined by then, so each edge finds its left end there. -/
theorem joinable_foldl {plan : Plan} {es : List Edge} (hplan : plan.Joinable)
    (hattached : Attached plan.scans es)
    (hreads : ∀ e ∈ es, e.predicate.left.ReadsFrom [e.left] ∧ e.predicate.right.ReadsFrom [e.right])
    (hscans : ∀ e ∈ es, (scan filters e.right).Joinable) :
    (es.foldl (joinTo db filters) plan).Joinable := by
  induction es generalizing plan with
  | nil => exact hplan
  | cons e es ih =>
    obtain ⟨hleft, -, hrest⟩ := hattached
    obtain ⟨hreads, hreads'⟩ := List.forall_mem_cons.1 hreads
    obtain ⟨hscan, hscans⟩ := List.forall_mem_cons.1 hscans
    rw [List.foldl_cons]
    refine ih ⟨hplan, hscan, hreads.1.mono ?_, hreads.2⟩ hrest hreads' hscans
    simpa using hleft

end

/-! ## Plans of queries -/

/-- A term of a query refers to an attribute of one of the relations. -/
def BoundIn (relations : List Schema) : Term → Prop
  | .constant _ => True
  | .attr a => a.relation ∈ relations ∧ a.position < a.relation.arity

theorem BoundIn.readsFrom {relations : List Schema} {t : Term} (h : BoundIn relations t) :
    t.ReadsFrom relations := by
  cases t with
  | constant d => trivial
  | attr a => exact ⟨a.relation, h.1, rfl, h.2⟩

theorem BoundIn.inRange {relations : List Schema} {t : Term} (h : BoundIn relations t) :
    t.InRange := by
  cases t with
  | constant d => trivial
  | attr a => exact h.2

theorem BoundIn.mem {relations : List Schema} {t : Term} {r : Schema} (h : BoundIn relations t)
    (hr : t.relation? = some r) : r ∈ relations ∧ t.ReadsFrom [r] := by
  cases t with
  | constant d => cases hr
  | attr a =>
    cases hr
    exact ⟨h.1, a.relation, List.mem_singleton_self _, rfl, h.2⟩

/-- A predicate that belongs to a scan names the relation that is scanned, and no other. -/
theorem sameRelation_of_scans {p : Predicate} {r q : Schema} (h : p.scans r = true)
    (hq : p.left.relation? = some q ∨ p.right.relation? = some q) : q.SameRelation r := by
  unfold Predicate.scans at h
  split at h
  · rename_i s hkind
    have hs : s.SameRelation r := of_decide_eq_true h
    unfold Predicate.kind at hkind
    split at hkind
    · rename_i l m hl hm
      split at hkind
      · rename_i hlm
        cases hkind
        rw [hl, hm, Option.some_inj, Option.some_inj] at hq
        rcases hq with rfl | rfl
        · exact hs
        · exact Eq.trans (Eq.symm hlm) hs
      · cases hkind
    · rename_i hl hm
      cases hkind
      rw [hl, hm, Option.some_inj] at hq
      rcases hq with rfl | hq
      · exact hs
      · cases hq
    · rename_i hl hm
      cases hkind
      rw [hl, hm, Option.some_inj] at hq
      rcases hq with hq | rfl
      · cases hq
      · exact hs
    · cases hkind
  · cases h

/-- A predicate that does not join belongs to the scan of a relation. -/
theorem exists_scans {relations : List Schema} {p : Predicate}
    (hb : BoundIn relations p.left ∧ BoundIn relations p.right) (hc : p.kind ≠ .constant)
    (hj : p.isJoin = false) : ∃ r ∈ relations, p.scans r = true := by
  have hscan : ∃ r ∈ relations, p.kind = .scan r := by
    unfold Predicate.isJoin at hj
    unfold Predicate.kind at hj hc ⊢
    split
    · rename_i l r hl hr
      split
      · exact ⟨l, (hb.1.mem hl).1, rfl⟩
      · rename_i hne
        simp [hl, hr, hne] at hj
    · rename_i l hl hr
      exact ⟨l, (hb.1.mem hl).1, rfl⟩
    · rename_i r hl hr
      exact ⟨r, (hb.2.mem hr).1, rfl⟩
    · rename_i hl hr
      simp [hl, hr] at hc
  obtain ⟨r, hr, hkind⟩ := hscan
  refine ⟨r, hr, ?_⟩
  rw [Predicate.scans, hkind]
  exact decide_eq_true rfl

section

variable {relations : List Schema} {predicates : List Predicate}

theorem scan_joinable {r : Schema} (hn : (relations.map (·.name)).Nodup)
    (hb : ∀ p ∈ predicates, BoundIn relations p.left ∧ BoundIn relations p.right)
    (hr : r ∈ relations) : (scan predicates r).Joinable := by
  intro p hp
  obtain ⟨hp, hscans⟩ := List.mem_filter.1 hp
  have hreads : ∀ t : Term, BoundIn relations t →
      (∀ q, t.relation? = some q → q.SameRelation r) → t.ReadsFrom [r] := by
    intro t ht hsame
    cases hq : t.relation? with
    | none =>
      cases t with
      | constant d => trivial
      | attr a => cases hq
    | some q =>
      obtain ⟨hmem, hread⟩ := ht.mem hq
      rwa [eq_of_sameRelation hn hmem hr (hsame q hq)] at hread
  exact ⟨hreads _ (hb p hp).1 fun q hq => sameRelation_of_scans hscans (.inl hq),
    hreads _ (hb p hp).2 fun q hq => sameRelation_of_scans hscans (.inr hq)⟩

/-- An equality holds or not whichever way it is read. -/
theorem Edge.Walks.holdsAmong {e d : Edge} (h : e.Walks d) (ts : List Tuple) :
    e.predicate.holdsAmong ts = d.predicate.holdsAmong ts := by
  rcases h with rfl | rfl
  · rfl
  · exact decide_eq_decide.2 eq_comm

/-- The join predicates are those of the edges. -/
theorem exists_edge {p : Predicate} (hp : p ∈ predicates) (hj : p.isJoin = true) :
    ∃ e ∈ edgesOf predicates, e.predicate = p := by
  obtain ⟨e, he, hpred⟩ := exists_ofPredicate? hj
  exact ⟨e, List.mem_filterMap.2 ⟨p, hp, he⟩, hpred⟩

/-- Along a chain of all edges over all relations every predicate is tested, and no other. -/
theorem all_tests_foldl {db : Database} {r : Schema} {es taken : List Edge}
    (hb : ∀ p ∈ predicates, BoundIn relations p.left ∧ BoundIn relations p.right)
    (hc : ∀ p ∈ predicates, p.kind ≠ .constant) (hwalks : List.Forall₂ Edge.Walks es taken)
    (htaken : taken.Perm (edgesOf predicates)) (hscans : relations ⊆ r :: es.map (·.right))
    (ts : List Tuple) :
    (es.foldl (joinTo db (predicates.filter (! ·.isJoin)))
      (scan (predicates.filter (! ·.isJoin)) r)).tests.all (·.holdsAmong ts)
      = predicates.all (·.holdsAmong ts) := by
  rw [Bool.eq_iff_iff, List.all_eq_true, List.all_eq_true]
  constructor
  · intro h p hp
    cases hj : p.isJoin with
    | true =>
      obtain ⟨d, hd, rfl⟩ := exists_edge hp hj
      obtain ⟨e, he, hed⟩ := exists_mem_of_forall₂ hwalks.flip (htaken.symm.subset hd)
      rw [← Edge.Walks.holdsAmong hed]
      exact h _ (mem_tests_foldl.2 (.inr ⟨e, he, .inl rfl⟩))
    | false =>
      obtain ⟨q, hq, hscan⟩ := exists_scans (hb p hp) (hc p hp) hj
      have hfilter : p ∈ (predicates.filter (! ·.isJoin)).filter (·.scans q) :=
        List.mem_filter.2 ⟨List.mem_filter.2 ⟨hp, by rw [hj]; rfl⟩, hscan⟩
      refine h p (mem_tests_foldl.2 ?_)
      rcases List.mem_cons.1 (hscans hq) with rfl | hq
      · exact .inl hfilter
      · obtain ⟨e, he, rfl⟩ := List.mem_map.1 hq
        exact .inr ⟨e, he, .inr hfilter⟩
  · have hfilter : ∀ q t, t ∈ (predicates.filter (! ·.isJoin)).filter (·.scans q) →
        t ∈ predicates := fun q t ht => List.mem_of_mem_filter (List.mem_of_mem_filter ht)
    intro h t ht
    rcases mem_tests_foldl.1 ht with ht | ⟨e, he, rfl | ht⟩
    · exact h t (hfilter r t ht)
    · obtain ⟨d, hd, hed⟩ := exists_mem_of_forall₂ hwalks he
      rw [hed.holdsAmong]
      exact h _ (predicate_mem_of_mem_edgesOf (htaken.subset hd))
    · exact h t (hfilter e.right t ht)

/-- The edges that are walked have the terms of the predicates. -/
theorem Edge.Walks.boundIn {e d : Edge} (h : e.Walks d)
    (hb : BoundIn relations d.predicate.left ∧ BoundIn relations d.predicate.right) :
    BoundIn relations e.predicate.left ∧ BoundIn relations e.predicate.right := by
  rcases h with rfl | rfl
  · exact hb
  · exact hb.symm

/-- Edges lead between the relations. -/
theorem ends_mem (hb : ∀ p ∈ predicates, BoundIn relations p.left ∧ BoundIn relations p.right) :
    ∀ e ∈ edgesOf predicates, e.left ∈ relations ∧ e.right ∈ relations := by
  intro e he
  obtain ⟨hl, hr⟩ := hb _ (predicate_mem_of_mem_edgesOf he)
  exact ⟨(hl.mem e.relations.1).1, (hr.mem e.relations.2.1).1⟩

/-- The tree of a query scans its relations and tests its predicates. -/
theorem planOf_eq_ok {db : Database} {plan : Plan} (hn : (relations.map (·.name)).Nodup)
    (hb : ∀ p ∈ predicates, BoundIn relations p.left ∧ BoundIn relations p.right)
    (hc : ∀ p ∈ predicates, p.kind ≠ .constant)
    (h : planOf db relations (predicates.filter (! ·.isJoin)) (edgesOf predicates) = .ok plan) :
    plan.Joinable ∧ plan.scans.Perm relations
      ∧ ∀ ts, plan.tests.all (·.holdsAmong ts) = predicates.all (·.holdsAmong ts) := by
  have hends := ends_mem hb
  obtain ⟨r, hr, es, taken, rfl, hattached, hwalks, htaken, hlen⟩ := exists_chain h hn hends
  have hfrom : ∀ e ∈ es, ∃ d ∈ edgesOf predicates, e.Walks d := by
    intro e he
    obtain ⟨d, hd, hed⟩ := exists_mem_of_forall₂ hwalks he
    exact ⟨d, htaken.subset hd, hed⟩
  have hright : ∀ e ∈ es, e.right ∈ relations := by
    intro e he
    obtain ⟨d, hd, hed⟩ := hfrom e he
    exact (hed.ends (hends d hd)).2
  -- Different relations, all from the list and as many as it has: these are all of them.
  have hperm : (r :: es.map (·.right)).Perm relations := by
    have hnodup : (r :: es.map (·.right)).Nodup :=
      (hattached.names_nodup (List.nodup_singleton _)).of_map
    have hsub : r :: es.map (·.right) ⊆ relations := by
      refine List.cons_subset.2 ⟨hr, fun q hq => ?_⟩
      obtain ⟨e, he, rfl⟩ := List.mem_map.1 hq
      exact hright e he
    refine (List.subperm_of_subset hnodup hsub).perm_of_length_le (Nat.le_of_eq ?_)
    rw [← hlen, List.length_cons, List.length_map, hwalks.length_eq, htaken.length_eq]
  have hscan : ∀ q ∈ relations, (scan (predicates.filter (! ·.isJoin)) q).Joinable :=
    fun q hq => scan_joinable hn (fun p hp => hb p (List.mem_of_mem_filter hp)) hq
  have hreads : ∀ e ∈ es,
      e.predicate.left.ReadsFrom [e.left] ∧ e.predicate.right.ReadsFrom [e.right] := by
    intro e he
    obtain ⟨d, hd, hed⟩ := hfrom e he
    have hbound := hed.boundIn (hb _ (predicate_mem_of_mem_edgesOf hd))
    exact ⟨(hbound.1.mem e.relations.1).2, (hbound.2.mem e.relations.2.1).2⟩
  refine ⟨?_, ?_, all_tests_foldl hb hc hwalks htaken hperm.symm.subset⟩
  · exact joinable_foldl (hscan r hr) hattached hreads fun e he => hscan _ (hright e he)
  · rw [scans_foldl]
    exact hperm

/-- What is tested in the tree of a query reads attributes of its relations. -/
theorem boundIn_of_mem_tests {db : Database} {plan : Plan} (hn : (relations.map (·.name)).Nodup)
    (hb : ∀ p ∈ predicates, BoundIn relations p.left ∧ BoundIn relations p.right)
    (h : planOf db relations (predicates.filter (! ·.isJoin)) (edgesOf predicates) = .ok plan)
    {t : Predicate} (ht : t ∈ plan.tests) :
    BoundIn relations t.left ∧ BoundIn relations t.right := by
  obtain ⟨r, -, es, taken, rfl, -, hwalks, htaken, -⟩ := exists_chain h hn (ends_mem hb)
  rcases mem_tests_foldl.1 ht with ht | ⟨e, he, rfl | ht⟩
  · exact hb t (List.mem_of_mem_filter (List.mem_of_mem_filter ht))
  · obtain ⟨d, hd, hed⟩ := exists_mem_of_forall₂ hwalks he
    exact hed.boundIn (hb _ (predicate_mem_of_mem_edgesOf (htaken.subset hd)))
  · exact hb t (List.mem_of_mem_filter (List.mem_of_mem_filter ht))

end

end RelQuery.JoinTree
