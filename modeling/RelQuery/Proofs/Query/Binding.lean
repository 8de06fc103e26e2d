/-
  Binding queries: a name that can be resolved stands for the attribute it is bound to, so bound
  predicates hold and bound outputs have the values that the query's own comparisons and names say.

  Like join trees, plans of queries are first read as a plain function (`planOf`), which the
  store's layout and the warnings have no part in.

  Main statements: `query_gives`, and what a plan of a query scans, tests and shows
  (`planOf_eq_ok`).
-/
import RelQuery.Binding
import RelQuery.Proofs.Catalog
import RelQuery.Proofs.JoinTree.Plan
import RelQuery.Proofs.Query.Answer

namespace RelQuery

open JoinTree (BoundIn edgesOf)

/-! ## Names in scope -/

namespace Scope

/-- Relations of different names are found by their names. -/
theorem find?_eq_some_iff {rs : List Schema} (hn : (rs.map (·.name)).Nodup) {name : String}
    {r : Schema} : rs.find? (·.name = name) = some r ↔ r ∈ rs ∧ r.name = name := by
  constructor
  · intro h
    exact ⟨List.mem_of_find?_eq_some h, by simpa using List.find?_some h⟩
  · rintro ⟨hr, rfl⟩
    cases hfind : rs.find? (·.name = r.name) with
    | none => simpa using List.find?_eq_none.1 hfind r hr
    | some q =>
      have hname : q.name = r.name := by simpa using List.find?_some hfind
      exact congrArg some (List.inj_on_of_nodup_map hn (List.mem_of_find?_eq_some hfind) hr hname)

/-- A name is resolved to an attribute that it speaks of, of the only relation with one. -/
theorem resolve_eq_ok {s : Scope} {n : AttributeName} {a : BoundAttribute}
    (h : s.resolve n = .ok a) :
    a.relation ∈ s.relations ∧ n.speaksOf a.relation = true
      ∧ a.relation.position? n.name = some a.position
      ∧ ∀ r ∈ s.relations, n.speaksOf r = true → (r.position? n.name).isSome →
        r.SameRelation a.relation := by
  obtain ⟨relation, name⟩ := n
  cases relation with
  | some rn =>
    have h : s.resolveIn rn name = .ok a := h
    unfold resolveIn at h
    split at h
    · cases h
    · rename_i r hfind
      split at h
      · cases h
      · rename_i p hp
        cases h
        have hname : r.name = rn := by simpa using List.find?_some hfind
        refine ⟨List.mem_of_find?_eq_some hfind, decide_eq_true hname.symm, hp, ?_⟩
        intro r' _ hspeaks _
        have hname' : rn = r'.name := of_decide_eq_true hspeaks
        exact hname'.symm.trans hname.symm
  | none =>
    have h : s.resolveAnywhere name = .ok a := h
    unfold resolveAnywhere at h
    split at h
    · cases h
    · rename_i a' hcandidates
      cases h
      -- Another relation with the attribute would be a second candidate.
      have hmem : ∀ b, b ∈ s.candidates name ↔ b = a := by simp [hcandidates]
      obtain ⟨r, hr, hra⟩ := List.mem_filterMap.1 ((hmem a).2 rfl)
      obtain ⟨p, hp, rfl⟩ := Option.map_eq_some_iff.1 hra
      refine ⟨hr, rfl, hp, fun r' hr' _ hsome => ?_⟩
      obtain ⟨p', hp'⟩ := Option.isSome_iff_exists.1 hsome
      have hother := (hmem ⟨r', p'⟩).1 (List.mem_filterMap.2 ⟨r', hr', by rw [hp']; rfl⟩)
      exact congrArg (·.relation.name) hother
    · cases h

end Scope

theorem Schema.lt_of_position? {r : Schema} {name : String} {p : Nat}
    (h : r.position? name = some p) : p < r.arity :=
  (List.findIdx?_eq_some_iff_getElem.1 h).1

theorem Tuple.exists_value {t : Tuple} {p : Nat} (h : p < t.schema.arity) :
    ∃ d, t.values[p]? = some d := by
  rw [← Tuple.length_values] at h
  exact ⟨_, List.getElem?_eq_getElem h⟩

section

variable {s : Scope} {ts : List Tuple}

/-- Among tuples of the relations in scope an attribute has its value in the tuple of its
relation. -/
theorem Term.among_attr (hn : Apart ts) {t : Tuple} (ht : t ∈ ts) (p : Nat) :
    (Term.attr ⟨t.schema, p⟩).among ts = t.values[p]? := by
  rw [Term.among, Row.find?_of_mem hn ht rfl]
  rfl

/-- A name that can be resolved has the value of the attribute that it is bound to. -/
theorem Scope.exists_value {n : AttributeName} {a : BoundAttribute} (h : s.resolve n = .ok a)
    (hn : Apart ts) (hts : ts.map (·.schema) = s.relations) :
    ∃ d, n.valueOn ts = some d ∧ (Term.attr a).among ts = some d := by
  obtain ⟨hmem, hspeaks, hposition, honly⟩ := resolve_eq_ok h
  obtain ⟨r, p⟩ := a
  rw [← hts] at hmem
  obtain ⟨t, ht, rfl⟩ := List.mem_map.1 hmem
  obtain ⟨d, hd⟩ := Tuple.exists_value (Schema.lt_of_position? hposition)
  refine ⟨d, AttributeName.valueOn_eq_some ht ?_ hspeaks fun u hu huspeaks husome => ?_, ?_⟩
  · rw [Tuple.valueOf?, hposition]
    exact hd
  · have hsome : (u.schema.position? n.name).isSome := by
      cases hp : u.schema.position? n.name with
      | some p => rfl
      | none => rw [Tuple.valueOf?, hp] at husome; cases husome
    have hname := honly u.schema (hts ▸ List.mem_map_of_mem hu) huspeaks hsome
    exact List.inj_on_of_nodup_map hn hu ht hname
  · rw [Term.among_attr hn ht]
    exact hd

end

namespace Binding

/-! ## Relations -/

theorem relations_eq_ok {catalog : Catalog} {bound rs : List Schema} {names : List String}
    (h : relations catalog bound names = .ok rs) :
    ∃ new, rs = bound ++ new ∧ new.map (·.name) = names
      ∧ (∀ r ∈ new, catalog.lookup? r.name = some r)
      ∧ ((bound.map (·.name)).Nodup → (rs.map (·.name)).Nodup) := by
  induction names generalizing bound with
  | nil =>
    cases h
    exact ⟨[], by simp, rfl, by simp, id⟩
  | cons name names ih =>
    cases hr : catalog.lookup name with
    | error e => rw [relations, hr] at h; cases h
    | ok r =>
      rw [relations, hr] at h
      change (if bound.any _ = true then _ else _) = _ at h
      split at h
      · cases h
      · rename_i hfresh
        obtain ⟨new, rfl, hnames, hlookup, hnodup⟩ := ih h
        have hr := Catalog.lookup_eq_ok_iff.1 hr
        have hname := Catalog.name_of_lookup? hr
        refine ⟨r :: new, by simp, by rw [List.map_cons, hnames, hname], ?_, fun hn => hnodup ?_⟩
        · exact List.forall_mem_cons.2 ⟨hname.symm ▸ hr, hlookup⟩
        · exact JoinTree.nodup_names_append hn (Bool.not_eq_true _ ▸ hfresh)

/-! ## Operands and comparisons -/

section

variable {s : Scope} {ts : List Tuple}

theorem boundIn_of_resolve {n : AttributeName} {a : BoundAttribute} (h : s.resolve n = .ok a) :
    BoundIn s.relations (.attr a) := by
  obtain ⟨hmem, -, hposition, -⟩ := Scope.resolve_eq_ok h
  exact ⟨hmem, Schema.lt_of_position? hposition⟩

theorem operand_eq_ok {o : Operand} {t : Term} (h : operand s o = .ok t) :
    BoundIn s.relations t ∧ ∀ ts, Apart ts → ts.map (·.schema) = s.relations →
      ∃ d, o.valueOn ts = some d ∧ t.among ts = some d := by
  cases o with
  | constant d =>
    cases h
    exact ⟨trivial, fun ts _ _ => ⟨d, rfl, rfl⟩⟩
  | attr n =>
    cases ha : s.resolve n with
    | error e => rw [operand, ha] at h; cases h
    | ok a =>
      rw [operand, ha] at h
      cases h
      exact ⟨boundIn_of_resolve ha, fun ts hn hts => Scope.exists_value ha hn hts⟩

/-- The predicate that a comparison means, without the warning. -/
def predicateOf (s : Scope) (c : Comparison) : Except Error Predicate := do
  let left ← operand s c.left
  let right ← operand s c.right
  if left.relation?.isNone && right.relation?.isNone then
    .error (.constantPredicate (Predicate.mk left right).text)
  else .ok ⟨left, right⟩

theorem comparison_gives (s : Scope) (c : Comparison) :
    (comparison s c).Gives (predicateOf s c) := by
  unfold comparison predicateOf
  refine (Reading.Gives.ofExcept _).andThen fun left _ => ?_
  refine (Reading.Gives.ofExcept _).andThen fun right _ => ?_
  dsimp only
  split
  · exact (Reading.Gives.throw _).bind_error
  · split
    · exact (Reading.Gives.report _ _).bind (Reading.Gives.pure _)
    · exact Reading.Gives.pure _

/-- A comparison is bound to the equality of what its operands are bound to, at least one of which
is an attribute. -/
theorem operands_of_predicateOf {c : Comparison} {p : Predicate} (h : predicateOf s c = .ok p) :
    operand s c.left = .ok p.left ∧ operand s c.right = .ok p.right
      ∧ ¬ (p.left.relation?.isNone && p.right.relation?.isNone) = true := by
  obtain ⟨left, hl, h⟩ := exists_of_bind_eq_ok h
  obtain ⟨right, hr, h⟩ := exists_of_bind_eq_ok h
  obtain ⟨hsome, h⟩ := check_eq_ok_iff.1 h
  cases h
  exact ⟨hl, hr, hsome⟩

/-- A bound predicate reads attributes in scope, at least one, and holds where its comparison
does. -/
theorem predicateOf_eq_ok {c : Comparison} {p : Predicate} (h : predicateOf s c = .ok p) :
    p.kind ≠ .constant ∧ (BoundIn s.relations p.left ∧ BoundIn s.relations p.right)
      ∧ ∀ ts, Apart ts → ts.map (·.schema) = s.relations → c.holdsOn ts = p.holdsAmong ts := by
  obtain ⟨hl, hr, hsome⟩ := operands_of_predicateOf h
  obtain ⟨hbl, hvl⟩ := operand_eq_ok hl
  obtain ⟨hbr, hvr⟩ := operand_eq_ok hr
  refine ⟨fun hkind => hsome ?_, ⟨hbl, hbr⟩, fun ts hn hts => ?_⟩
  · unfold Predicate.kind at hkind
    split at hkind
    · split at hkind <;> cases hkind
    · cases hkind
    · cases hkind
    · rename_i hl hr
      rw [hl, hr]
      rfl
  · obtain ⟨l, hl, hl'⟩ := hvl ts hn hts
    obtain ⟨r, hr, hr'⟩ := hvr ts hn hts
    rw [Comparison.holdsOn, hl, hr, Predicate.holdsAmong, hl', hr']
    simp

/-! ## Select lists -/

theorem filterMap_getElem?_range {α : Type} (as : List α) :
    (List.range as.length).filterMap (as[·]?) = as := by
  induction as with
  | nil => rfl
  | cons a as ih =>
    rw [List.length_cons, List.range_succ_eq_map, List.filterMap_cons, List.filterMap_map]
    simpa [Function.comp_def] using ih

/-- All attributes in scope have all values of all tuples. -/
theorem filterMap_expandAll (hn : Apart ts) (hts : ts.map (·.schema) = s.relations) :
    (s.expandAll.map Term.attr).filterMap (·.among ts) = ts.flatMap (·.values) := by
  rw [Scope.expandAll, ← hts, List.flatMap_map, List.map_flatMap, List.filterMap_flatMap]
  refine List.flatMap_congr fun t ht => ?_
  rw [List.map_map, List.filterMap_map, ← Tuple.length_values]
  refine Eq.trans (List.filterMap_congr fun p _ => ?_) (filterMap_getElem?_range t.values)
  exact Term.among_attr hn ht p

/-- Names that can be resolved have the values of the attributes they are bound to. -/
theorem mapM_valueOn {names : List AttributeName} {attributes : List BoundAttribute}
    (h : List.Forall₂ (fun n a => s.resolve n = .ok a) names attributes) (hn : Apart ts)
    (hts : ts.map (·.schema) = s.relations) :
    names.mapM (·.valueOn ts) = some ((attributes.map Term.attr).filterMap (·.among ts)) := by
  induction h with
  | nil => rfl
  | cons ha _ ih =>
    obtain ⟨d, hd, hd'⟩ := Scope.exists_value ha hn hts
    rw [List.mapM_cons, hd, ih, List.map_cons, List.filterMap_cons, hd']
    rfl

theorem boundIn_expandAll : ∀ t ∈ s.expandAll.map Term.attr, BoundIn s.relations t := by
  intro t ht
  obtain ⟨a, ha, rfl⟩ := List.mem_map.1 ht
  obtain ⟨r, hr, ha⟩ := List.mem_flatMap.1 ha
  obtain ⟨p, hp, rfl⟩ := List.mem_map.1 ha
  exact ⟨hr, List.mem_range.1 hp⟩

/-- Bound outputs have the values that the select list asks for. -/
theorem outputs_eq_ok {q : Query} {outs : List Term} (h : outputs s q.outputs = .ok outs) :
    (∀ t ∈ outs, BoundIn s.relations t)
      ∧ ∀ ts, Apart ts → ts.map (·.schema) = s.relations →
        q.evaluate ts = some (outs.filterMap (·.among ts)) := by
  unfold outputs at h
  split at h
  · rename_i hempty
    cases h
    refine ⟨boundIn_expandAll, fun ts hn hts => ?_⟩
    rw [Query.evaluate, if_pos hempty, filterMap_expandAll hn hts]
  · rename_i hne
    cases hattributes : q.outputs.mapM s.resolve with
    | error e => rw [hattributes] at h; cases h
    | ok attributes =>
      rw [hattributes] at h
      cases h
      have hall := forall₂_of_mapM_eq_ok hattributes
      refine ⟨fun t ht => ?_, fun ts hn hts => ?_⟩
      · obtain ⟨a, ha, rfl⟩ := List.mem_map.1 ht
        obtain ⟨n, -, hna⟩ := exists_mem_of_forall₂ hall.flip ha
        exact boundIn_of_resolve hna
      · rw [Query.evaluate, if_neg hne, mapM_valueOn hall hn hts]

end

/-! ## Plans of queries -/

/-- The plan of a query, without the warnings. -/
def planOf (db : Database) (q : Query) : Except Error Plan := do
  let scope : Scope := ⟨← relations db.catalog [] q.relations⟩
  let predicates ← q.comparisons.mapM (predicateOf scope)
  let outputs ← outputs scope q.outputs
  if q.distinct then .error (.notImplemented "DISTINCT")
  else if q.orderBy.isSome then .error (.notImplemented "ORDER BY")
  else do
    let input ← JoinTree.planOf db scope.relations (predicates.filter (! ·.isJoin))
      (edgesOf predicates)
    return .project outputs input

/-- Predicates that were bound one by one. -/
theorem predicates_eq_ok {s : Scope} {comparisons : List Comparison} {predicates : List Predicate}
    (h : comparisons.mapM (predicateOf s) = .ok predicates) :
    (∀ p ∈ predicates, p.kind ≠ .constant)
      ∧ (∀ p ∈ predicates, BoundIn s.relations p.left ∧ BoundIn s.relations p.right)
      ∧ ∀ ts, Apart ts → ts.map (·.schema) = s.relations →
        comparisons.all (·.holdsOn ts) = predicates.all (·.holdsAmong ts) := by
  have hall := forall₂_of_mapM_eq_ok h
  refine ⟨fun p hp => ?_, fun p hp => ?_, fun ts hn hts => ?_⟩
  · obtain ⟨c, -, hc⟩ := exists_mem_of_forall₂ hall.flip hp
    exact (predicateOf_eq_ok hc).1
  · obtain ⟨c, -, hc⟩ := exists_mem_of_forall₂ hall.flip hp
    exact (predicateOf_eq_ok hc).2.1
  · clear h
    induction hall with
    | nil => rfl
    | cons hc _ ih => rw [List.all_cons, List.all_cons, ih, (predicateOf_eq_ok hc).2.2 ts hn hts]

/-- Binding a query gives its plan, if the partitions of all relations are there. -/
theorem query_gives {db : Database} (q : Query)
    (h : ∀ r : Schema, db.catalog.lookup? r.name = some r → ∃ t, db.store.contents r.name = .ok t) :
    (query db q).Gives (planOf db q) := by
  unfold query planOf
  refine (Reading.Gives.ofExcept _).andThen fun rs hrs => ?_
  refine (Reading.Gives.mapM (comparison_gives ⟨rs⟩) _).andThen fun predicates hpredicates => ?_
  refine (Reading.Gives.ofExcept _).andThen fun outs _ => ?_
  dsimp only
  split
  · exact (Reading.Gives.throw _).bind_error
  · split
    · exact (Reading.Gives.throw _).bind_error
    · obtain ⟨_, rfl, -, hlookup, -⟩ := relations_eq_ok hrs
      obtain ⟨hconstant, hbound, -⟩ := predicates_eq_ok hpredicates
      refine (JoinTree.build_gives hconstant fun e he => ?_).andThen fun input _ =>
        Reading.Gives.pure _
      obtain ⟨hl, hr⟩ := hbound _ (JoinTree.predicate_mem_of_mem_edgesOf he)
      exact ⟨.inr (h _ (hlookup _ (hl.mem e.relations.1).1)),
        .inr (h _ (hlookup _ (hr.mem e.relations.2.1).1))⟩

/-- The plan of a query depends on the catalog and on the strategies for its relations. -/
theorem planOf_congr {db db' : Database} (q : Query) (hcatalog : db'.catalog = db.catalog)
    (h : ∀ r : Schema, db.catalog.lookup? r.name = some r →
      JoinTree.strategyFor db' r = JoinTree.strategyFor db r) : planOf db' q = planOf db q := by
  unfold planOf
  rw [hcatalog]
  refine bind_congr_of_ok fun rs hrs => bind_congr_of_ok fun ps hps => bind_congr_of_ok
    fun outs _ => ?_
  obtain ⟨_, rfl, -, hlookup, -⟩ := relations_eq_ok hrs
  obtain ⟨-, hbound, -⟩ := predicates_eq_ok hps
  have hends := JoinTree.ends_mem hbound
  rw [JoinTree.planOf_congr fun e he =>
    ⟨h _ (hlookup _ (hends e he).1), h _ (hlookup _ (hends e he).2)⟩]

/-- A query has a plan when its names can be bound, it asks for nothing that is not offered, and its
predicates make a tree. -/
theorem planOf_eq_ok_iff {db : Database} {q : Query} {plan : Plan} : planOf db q = .ok plan
    ↔ ∃ rs ps outs input, relations db.catalog [] q.relations = .ok rs
      ∧ q.comparisons.mapM (predicateOf ⟨rs⟩) = .ok ps ∧ outputs ⟨rs⟩ q.outputs = .ok outs
      ∧ q.distinct = false ∧ q.orderBy = none
      ∧ JoinTree.planOf db rs (ps.filter (! ·.isJoin)) (edgesOf ps) = .ok input
      ∧ plan = .project outs input := by
  unfold planOf
  constructor
  · intro h
    obtain ⟨rs, hrs, h⟩ := exists_of_bind_eq_ok h
    obtain ⟨ps, hps, h⟩ := exists_of_bind_eq_ok h
    obtain ⟨outs, houts, h⟩ := exists_of_bind_eq_ok h
    split at h
    · cases h
    · rename_i hdistinct
      split at h
      · cases h
      · rename_i horder
        obtain ⟨input, hinput, h⟩ := exists_of_bind_eq_ok h
        cases h
        exact ⟨rs, ps, outs, input, hrs, hps, houts, by simpa using hdistinct,
          by simpa using horder, hinput, rfl⟩
  · rintro ⟨rs, ps, outs, input, hrs, hps, houts, hdistinct, horder, hinput, rfl⟩
    rw [hrs]
    show (q.comparisons.mapM (predicateOf ⟨rs⟩) >>= _) = _
    rw [hps]
    show (outputs ⟨rs⟩ q.outputs >>= _) = _
    rw [houts, hdistinct, horder]
    show (JoinTree.planOf db rs (ps.filter (! ·.isJoin)) (edgesOf ps) >>= _) = _
    rw [hinput]
    rfl

/-- The plan of a query shows what the select list asks for, of a tree that scans the relations and
tests what the comparisons say. -/
theorem planOf_eq_ok {db : Database} {q : Query} {plan : Plan} (h : planOf db q = .ok plan) :
    ∃ outs input rs, plan = .project outs input ∧ input.Joinable ∧ input.scans.Perm rs
      ∧ (∀ t ∈ outs, BoundIn rs t) ∧ (rs.map (·.name)).Nodup ∧ rs.map (·.name) = q.relations
      ∧ (∀ r ∈ rs, db.catalog.lookup? r.name = some r)
      ∧ ∀ ts, Apart ts → ts.map (·.schema) = rs →
        q.comparisons.all (·.holdsOn ts) = input.tests.all (·.holdsAmong ts)
          ∧ q.evaluate ts = some (outs.filterMap (·.among ts)) := by
  obtain ⟨rs, predicates, outs, input, hrs, hpredicates, houts, -, -, hinput, rfl⟩ :=
    planOf_eq_ok_iff.1 h
  obtain ⟨_, rfl, hnames, hlookup, hnodup⟩ := relations_eq_ok hrs
  obtain ⟨hconstant, hbound, hholds⟩ := predicates_eq_ok hpredicates
  obtain ⟨hshown, hvalues⟩ := outputs_eq_ok houts
  have hn := hnodup List.nodup_nil
  obtain ⟨hjoinable, hscans, htests⟩ := JoinTree.planOf_eq_ok hn hbound hconstant hinput
  refine ⟨outs, input, rs, rfl, hjoinable, hscans, hshown, hn, hnames, hlookup,
    fun ts hapart hts => ⟨?_, hvalues ts hapart hts⟩⟩
  rw [htests, hholds ts hapart hts]

end Binding

end RelQuery
