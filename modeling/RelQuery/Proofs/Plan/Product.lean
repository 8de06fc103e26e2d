/-
  The rows of joins as a filtered product: one tuple of each scanned relation in all ways, and of
  these combinations those on which every predicate of the plan holds.

  Where a predicate stands in the plan, and in which order the relations are scanned, makes no
  difference but in the order of the rows.

  Main statements: `Plan.parts_rows` and `filterMap_combinations_perm`.
-/
import RelQuery.Proofs.Plan.Rows
import Mathlib.Data.List.Perm.Basic

namespace RelQuery

/-- One element of each list in all ways, those of the first list changing last. -/
def combinations {α : Type} : List (List α) → List (List α)
  | [] => [[]]
  | as :: rest => as.flatMap fun a => (combinations rest).map (a :: ·)

theorem combinations_append {α : Type} (as bs : List (List α)) :
    combinations (as ++ bs)
      = (combinations as).flatMap fun xs => (combinations bs).map (xs ++ ·) := by
  induction as with
  | nil => simp [combinations]
  | cons a as ih =>
    simp only [List.cons_append, combinations, ih, List.map_flatMap, List.flatMap_assoc,
      List.flatMap_map, List.map_map]
    rfl

/-- A combination of stored tuples has one of each relation. -/
theorem schemas_of_mem_combinations {s : Store} {rs : List Schema} {ts : List Tuple}
    (h : ts ∈ combinations (rs.map s.tuples)) : ts.map (·.schema) = rs := by
  induction rs generalizing ts with
  | nil =>
    obtain rfl := List.mem_singleton.1 h
    rfl
  | cons r rs ih =>
    obtain ⟨t, ht, hmem⟩ := List.mem_flatMap.1 h
    obtain ⟨us, hus, rfl⟩ := List.mem_map.1 hmem
    rw [List.map_cons, ih hus, Store.schema_of_mem_tuples ht]

/-! ## Terms among tuples -/

/-- The value of a term among tuples of different relations. -/
def Term.among (ts : List Tuple) : Term → Option Datum
  | constant d => some d
  | attr a => (ts.find? fun t => t.schema.SameRelation a.relation).bind (·.values[a.position]?)

/-- Whether both terms have the same value among the tuples. -/
def Predicate.holdsAmong (ts : List Tuple) (p : Predicate) : Bool :=
  p.left.among ts = p.right.among ts

/-- Names of relations of tuples are pairwise different. -/
def Apart (ts : List Tuple) : Prop := (ts.map (·.schema.name)).Nodup

theorem apart_of_schemas {ts : List Tuple} {rs : List Schema} (h : ts.map (·.schema) = rs)
    (hn : (rs.map (·.name)).Nodup) : Apart ts := by
  rw [← h, List.map_map] at hn
  exact hn

namespace Term

/-- A row carries its tuples and nothing else. -/
theorem read_eq_among {row : Row} {rs : List Schema} (h : row.Of rs) (t : Term) :
    t.read row = t.among row.parts := by
  cases t with
  | constant d => rfl
  | attr a =>
    have hvalue : (a.value row).toOption
        = (row.tupleOf? a.relation).bind (·.values[a.position]?) := by
      unfold BoundAttribute.value
      cases row.tupleOf? a.relation with
      | none => rfl
      | some u =>
        rw [Option.bind_some]
        dsimp only
        cases u.values[a.position]? with
        | none => rfl
        | some d => rfl
    show (a.value row).toOption = _
    rw [hvalue, Row.tupleOf?_eq_find? h]
    rfl

theorem among_append_left {t : Term} {ts us : List Tuple} {rs : List Schema}
    (ht : t.ReadsFrom rs) (hts : ts.map (·.schema) = rs) : t.among (ts ++ us) = t.among ts := by
  cases t with
  | constant d => rfl
  | attr a =>
    obtain ⟨r, hr, hname, -⟩ := ht
    rw [← hts] at hr
    obtain ⟨u, hu, rfl⟩ := List.mem_map.1 hr
    have hsome : (ts.find? fun t => t.schema.SameRelation a.relation).isSome := by
      rw [List.find?_isSome]
      exact ⟨u, hu, decide_eq_true (Eq.symm hname)⟩
    obtain ⟨v, hv⟩ := Option.isSome_iff_exists.1 hsome
    rw [among, among, List.find?_append, hv]
    rfl

/-- Among tuples of different relations it does not matter which come first. -/
theorem among_perm {ts us : List Tuple} (h : ts.Perm us) (hn : Apart ts) (t : Term) :
    t.among ts = t.among us := by
  cases t with
  | constant d => rfl
  | attr a =>
    have hus : Apart us := (h.map _).nodup hn
    have hfind : (ts.find? fun t => t.schema.SameRelation a.relation)
        = us.find? fun t => t.schema.SameRelation a.relation := by
      cases hu : us.find? fun t => t.schema.SameRelation a.relation with
      | some u =>
        have hmem := h.symm.subset (List.mem_of_find?_eq_some hu)
        have hsame : decide (u.schema.SameRelation a.relation) = true := by
          simpa using List.find?_some hu
        exact Row.find?_of_mem hn hmem (of_decide_eq_true hsame)
      | none =>
        rw [List.find?_eq_none] at hu ⊢
        exact fun u hmem => hu u (h.subset hmem)
    rw [among, among, hfind]

theorem among_append_right {t : Term} {ts us : List Tuple} {rs : List Schema}
    (ht : t.ReadsFrom rs) (hus : us.map (·.schema) = rs) (hn : Apart (ts ++ us)) :
    t.among (ts ++ us) = t.among us := by
  rw [among_perm List.perm_append_comm hn, among_append_left ht hus]

end Term

/-- Nor does it matter to a predicate. -/
theorem Predicate.holdsAmong_perm {ts us : List Tuple} (h : ts.Perm us) (hn : Apart ts)
    (p : Predicate) : p.holdsAmong ts = p.holdsAmong us := by
  have hl := Term.among_perm h hn p.left
  have hr := Term.among_perm h hn p.right
  exact decide_eq_decide.2 (by rw [hl, hr])

/-! ## Plans -/

namespace Plan

/-- All predicates of a plan. -/
def tests : Plan → List Predicate
  | scan _ filter => filter
  | join _ on left right => on :: (left.tests ++ right.tests)
  | _ => []

theorem readsFrom_of_mem_tests {p : Plan} (hp : p.Joinable) {t : Predicate} (ht : t ∈ p.tests) :
    t.left.ReadsFrom p.scans ∧ t.right.ReadsFrom p.scans := by
  induction p with
  | scan r filter => exact hp t ht
  | join strategy on left right ihl ihr =>
    obtain ⟨hl, hr, honl, honr⟩ := hp
    have hleft := List.subset_append_left left.scans right.scans
    have hright := List.subset_append_right left.scans right.scans
    rcases List.mem_cons.1 ht with rfl | ht
    · exact ⟨honl.mono hleft, honr.mono hright⟩
    · rcases List.mem_append.1 ht with ht | ht
      · exact ⟨(ihl hl ht).1.mono hleft, (ihl hl ht).2.mono hleft⟩
      · exact ⟨(ihr hr ht).1.mono hright, (ihr hr ht).2.mono hright⟩
  | project | create | drop | showTables | insert | explain => exact hp.elim

theorem all_eq_of_mem {α : Type} {p q : α → Bool} {as : List α} (h : ∀ a ∈ as, p a = q a) :
    as.all p = as.all q := by
  rw [Bool.eq_iff_iff, List.all_eq_true, List.all_eq_true]
  exact forall₂_congr fun a ha => by rw [h a ha]

/-- The predicates of a join hold on a combination if those of its sides hold on their parts, and
that of the join between them. -/
theorem all_tests_append {strategy : JoinStrategy} {on : Predicate} {left right : Plan}
    (hp : (join strategy on left right).Joinable) {ls rs : List Tuple}
    (hls : ls.map (·.schema) = left.scans) (hrs : rs.map (·.schema) = right.scans)
    (hn : Apart (ls ++ rs)) :
    (join strategy on left right).tests.all (·.holdsAmong (ls ++ rs))
      = (decide (on.left.among ls = on.right.among rs)
        && (left.tests.all (·.holdsAmong ls) && right.tests.all (·.holdsAmong rs))) := by
  obtain ⟨hl, hr, honl, honr⟩ := hp
  have hon : on.holdsAmong (ls ++ rs) = decide (on.left.among ls = on.right.among rs) := by
    rw [Predicate.holdsAmong, Term.among_append_left honl hls, Term.among_append_right honr hrs hn]
  have hleft : left.tests.all (·.holdsAmong (ls ++ rs)) = left.tests.all (·.holdsAmong ls) := by
    refine all_eq_of_mem fun t ht => ?_
    obtain ⟨htl, htr⟩ := readsFrom_of_mem_tests hl ht
    rw [Predicate.holdsAmong, Predicate.holdsAmong, Term.among_append_left htl hls,
      Term.among_append_left htr hls]
  have hright : right.tests.all (·.holdsAmong (ls ++ rs)) = right.tests.all (·.holdsAmong rs) := by
    refine all_eq_of_mem fun t ht => ?_
    obtain ⟨htl, htr⟩ := readsFrom_of_mem_tests hr ht
    rw [Predicate.holdsAmong, Predicate.holdsAmong, Term.among_append_right htl hrs hn,
      Term.among_append_right htr hrs hn]
  rw [tests, List.all_cons, List.all_append, hon, hleft, hright]

/-- The combinations of stored tuples of the scanned relations on which all predicates hold. -/
def product (s : Store) (p : Plan) : List (List Tuple) :=
  (combinations (p.scans.map s.tuples)).filter fun ts => p.tests.all (·.holdsAmong ts)

theorem flatMap_filter_eq {α β : Type} (p : α → Bool) (f : α → List β) (as : List α) :
    (as.filter p).flatMap f = as.flatMap fun a => if p a then f a else [] := by
  induction as with
  | nil => rfl
  | cons a as ih =>
    rw [List.filter_cons, List.flatMap_cons, ← ih]
    split <;> simp

/-- The product of a join pairs the products of its sides. -/
theorem product_join {s : Store} {strategy : JoinStrategy} {on : Predicate} {left right : Plan}
    (hp : (join strategy on left right).Joinable)
    (hn : ((left.scans ++ right.scans).map (·.name)).Nodup) :
    (join strategy on left right).product s = (left.product s).flatMap fun ls =>
      ((right.product s).filter fun rs => on.left.among ls = on.right.among rs).map (ls ++ ·) := by
  rw [product, product, product, scans, List.map_append, combinations_append, List.filter_flatMap,
    flatMap_filter_eq]
  refine List.flatMap_congr fun ls hls => ?_
  have hls := schemas_of_mem_combinations hls
  have htests : ∀ rs ∈ combinations (right.scans.map s.tuples),
      (join strategy on left right).tests.all (·.holdsAmong (ls ++ rs))
        = (decide (on.left.among ls = on.right.among rs)
          && (left.tests.all (·.holdsAmong ls) && right.tests.all (·.holdsAmong rs))) := by
    intro rs hrs
    have hrs := schemas_of_mem_combinations hrs
    refine all_tests_append hp hls hrs (apart_of_schemas ?_ hn)
    rw [List.map_append, hls, hrs]
  rw [List.filter_map]
  by_cases hleft : left.tests.all (·.holdsAmong ls) = true
  · rw [if_pos hleft, List.filter_filter]
    refine congrArg _ (List.filter_congr fun rs hrs => ?_)
    rw [Function.comp_apply, htests rs hrs, hleft, Bool.true_and]
  · rw [if_neg hleft, List.map_eq_nil_iff, List.filter_eq_nil_iff]
    intro rs hrs
    rw [Function.comp_apply, htests rs hrs, Bool.not_eq_true _ |>.mp hleft]
    simp

/-- The tuples of the rows of a plan are the product, in the same order. -/
theorem parts_rows {s : Store} {p : Plan} (hp : p.Joinable) (hn : (p.scans.map (·.name)).Nodup) :
    (p.rows s).map Row.parts = p.product s := by
  induction p with
  | scan r filter =>
    have htuples : combinations ([r].map s.tuples) = (s.tuples r).map fun t => [t] := by
      simp [combinations, List.map_eq_flatMap]
    have hjoins : ∀ t ∈ s.tuples r, filter.all (fun p => p.joins (.base t) (.base t))
        = filter.all (·.holdsAmong [t]) := by
      intro t ht
      have hrow := Row.base_of (Store.schema_of_mem_tuples ht)
      refine all_eq_of_mem fun p _ => ?_
      rw [Predicate.joins, Term.read_eq_among hrow, Term.read_eq_among hrow]
      rfl
    rw [rows, product, scans, tests, htuples, List.filter_map, List.filter_map, List.map_map]
    exact congrArg _ (List.filter_congr hjoins)
  | join strategy on left right ihl ihr =>
    have hn' := hn
    rw [scans, List.map_append, List.nodup_append] at hn'
    have ihl := ihl hp.1 hn'.1
    have ihr := ihr hp.2.1 hn'.2.1
    rw [product_join hp hn, ← ihl, ← ihr, rows, List.map_flatMap, List.flatMap_map]
    refine List.flatMap_congr fun l hl => ?_
    rw [List.map_map, List.filter_map, List.map_map]
    have hjoins : (right.rows s).filter (on.joins l)
        = (right.rows s).filter ((fun rs => decide (on.left.among l.parts = on.right.among rs))
          ∘ Row.parts) := by
      refine List.filter_congr fun r hr => ?_
      rw [Predicate.joins, Term.read_eq_among (of_mem_rows hp.1 hl),
        Term.read_eq_among (of_mem_rows hp.2.1 hr)]
      rfl
    rw [hjoins]
    rfl
  | project | create | drop | showTables | insert | explain => exact hp.elim

end Plan

/-! ## The order of relations -/

/-- Two walks through lists can be nested either way. -/
theorem flatMap_comm_perm {α β γ : Type} (as : List α) (bs : List β) (f : α → β → List γ) :
    (as.flatMap fun a => bs.flatMap (f a)).Perm
      (bs.flatMap fun b => as.flatMap fun a => f a b) := by
  induction as with
  | nil => simp
  | cons a as ih =>
    simp only [List.flatMap_cons]
    exact (ih.append_left _).trans (List.flatMap_append_perm bs (f a) _)

/-- What does not depend on the order of tuples is found as often in the combinations of
relations as in those of the same relations in another order. -/
theorem filterMap_combinations_perm {β : Type} {s : Store} {rs rs' : List Schema}
    (h : rs.Perm rs') {f : List Tuple → Option β}
    (hf : ∀ ts us, ts.Perm us → (ts.map (·.schema)).Perm rs → f ts = f us) :
    ((combinations (rs.map s.tuples)).filterMap f).Perm
      ((combinations (rs'.map s.tuples)).filterMap f) := by
  induction h generalizing f with
  | nil => exact .refl _
  | cons r h ih =>
    simp only [List.map_cons, combinations, List.filterMap_flatMap, List.filterMap_map]
    refine List.Perm.flatMap_left _ fun t ht => ih fun ts us hperm hts => ?_
    refine hf _ _ (hperm.cons t) ?_
    rw [List.map_cons, Store.schema_of_mem_tuples ht]
    exact hts.cons r
  | swap r r' rs =>
    -- The walks through the first two relations are nested the other way.
    simp only [List.map_cons, combinations, List.filterMap_flatMap, List.filterMap_map,
      List.map_flatMap, List.map_map]
    refine (flatMap_comm_perm _ _ _).trans (.of_eq ?_)
    refine List.flatMap_congr fun t ht => List.flatMap_congr fun t' ht' => ?_
    refine List.filterMap_congr fun ts hts => ?_
    refine hf (t' :: t :: ts) (t :: t' :: ts) (.swap ..) ?_
    rw [List.map_cons, List.map_cons, Store.schema_of_mem_tuples ht,
      Store.schema_of_mem_tuples ht', schemas_of_mem_combinations hts]
  | trans h h' ih ih' =>
    exact (ih hf).trans (ih' fun ts us hperm hts => hf ts us hperm (hts.trans h.symm))

end RelQuery
