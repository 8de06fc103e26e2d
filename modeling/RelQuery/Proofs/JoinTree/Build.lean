/-
  Building join trees: which queries have one, and why the others have none.

  Choosing strategies visits pages and reports, and has no part in whether a tree is found; so the
  builder is first read as a plain function (`build_gives`), and then its answers are compared
  with the links that the join predicates make.

  Main statement: a tree is built just when the links span the relations, and otherwise the count
  of the links, or whether the first of them can reach a cycle, says how it fails
  (`build_gives_tree_iff`).
-/
import RelQuery.Proofs.JoinTree.Growth
import RelQuery.Proofs.Reading
import RelQuery.Proofs.Store
import RelQuery.Proofs.Plan.Rows

namespace RelQuery.JoinTree

open Reading (Gives)

/-! ## The builder as a function -/

/-- Whether the strategy of a join with this relation can be chosen: if hash tables are allowed,
its rows have to be counted. -/
def Countable (db : Database) (r : Schema) : Prop :=
  db.config.hashJoin = false ∨ ∃ t, db.store.contents r.name = .ok t

/-- The strategy of a join with this relation on the right. -/
def strategyFor (db : Database) (r : Schema) : JoinStrategy :=
  match db.config.hashJoin, db.store.contents r.name with
  | true, .ok t => if t.size ≤ db.config.maxBuildRows then .hash else .nestedLoop
  | _, _ => .nestedLoop

/-- It depends on the settings and on how many records there are. -/
theorem strategyFor_congr {db db' : Database} {r : Schema} (hconfig : db'.config = db.config)
    (h : db.store.SameRecords db'.store r.name) : strategyFor db' r = strategyFor db r := by
  unfold strategyFor Store.contents
  rw [hconfig]
  cases db.config.hashJoin with
  | false => rfl
  | true =>
    cases hopen : db.store.openTable r.name with
    | error e =>
      rw [h.openTable_of_error hopen]
      rfl
    | ok id =>
      obtain ⟨id', hopen', hrecords⟩ := h.openTable_of_ok hopen
      have hsize : (db'.store.table id').size = (db.store.table id).size := by
        have hlength := congrArg List.length hrecords
        rwa [Table.records, Table.records, List.length_map, List.length_map] at hlength
      rw [hopen']
      dsimp only [Except.map]
      rw [hsize]

/-- A plan joined with the relation at the far end of an edge. -/
def joinTo (db : Database) (filters : List Predicate) (plan : Plan) (e : Edge) : Plan :=
  .join (strategyFor db e.right) e.predicate plan (scan filters e.right)

theorem countRows_gives {store : Store} {r : Schema} {t : Table}
    (h : store.contents r.name = .ok t) : Gives (countRows store r) (.ok t.size) := by
  refine Gives.of fun l => ?_
  obtain ⟨id, ho, rfl⟩ := Store.contents_eq_ok_iff_openTable.1 h
  have hopen : ({ store with layout := l } : Store).openTable r.name = .ok id := ho
  simp only [Store.walk, Store.walkTo, hopen]
  rfl

theorem chooseStrategy_gives {db : Database} {on : Predicate} {right : Schema}
    (h : Countable db right) : Gives (chooseStrategy db on right) (.ok (strategyFor db right)) := by
  unfold chooseStrategy strategyFor
  by_cases hhash : db.config.hashJoin = true
  · obtain ⟨t, ht⟩ := h.resolve_left (by simp [hhash])
    rw [if_pos hhash, hhash, ht]
    exact (countRows_gives ht).bind ((Gives.report _ _).bind (Gives.pure _))
  · have hhash : db.config.hashJoin = false := by simpa using hhash
    rw [hhash]
    exact Gives.pure _

theorem joinOn_gives {db : Database} {filters : List Predicate} {left : Plan} {e : Edge}
     (h : Countable db e.right) :
    Gives (joinOn db filters left e) (.ok (joinTo db filters left e)) :=
  (chooseStrategy_gives h).bind (Gives.pure _)

theorem grow_eq {db : Database} {filters : List Predicate} {joined : List Schema} {plan : Plan}
    {edges : List Edge} (hne : ¬ edges.isEmpty = true) :
    grow db filters joined plan edges = (match pick joined edges with
      | .error e => throw e
      | .ok none => throw (.unconnected (edges.map (·.predicate.text)))
      | .ok (some (e, rest)) => do
        let plan ← joinOn db filters plan e
        grow db filters (joined ++ [e.right]) plan rest) := by
  rw [grow, if_neg hne]
  split <;> rename_i hp <;> simp only [hp]

/-- Growing a plan joins to it along the edges of the chain. -/
theorem grow_gives {db : Database} {filters : List Predicate} {joined : List Schema} {plan : Plan}
    {edges : List Edge} (h : ∀ e ∈ edges, Countable db e.left ∧ Countable db e.right) :
    Gives (grow db filters joined plan edges)
      ((chain joined edges).map fun es => es.foldl (joinTo db filters) plan) := by
  fun_induction chain joined edges generalizing plan with
  | case1 joined edges hempty =>
    rw [grow, if_pos hempty]
    exact Gives.pure _
  | case2 joined edges hne err hp =>
    rw [grow_eq hne, hp]
    exact Gives.throw _
  | case3 joined edges hne hp =>
    rw [grow_eq hne, hp]
    exact Gives.throw _
  | case4 joined edges hne e rest hp _ ih =>
    obtain ⟨d, hperm, hw, -, -⟩ := pick_eq_some hp
    have hd := h d (hperm.symm.subset List.mem_cons_self)
    have hcount : Countable db e.right := by
      rcases hw with rfl | rfl
      · exact hd.2
      · exact hd.1
    have hrest := @ih (joinTo db filters plan e)
      fun c hc => h c (hperm.symm.subset (List.mem_cons_of_mem _ hc))
    rw [grow_eq hne, hp]
    refine (joinOn_gives hcount).bind ?_
    cases hc : chain (joined ++ [e.right]) rest with
    | error err => rw [hc] at hrest; exact hrest
    | ok es => rw [hc] at hrest; exact hrest

/-- The plan that joins the relations along the chain of the edges, once these are counted. -/
def planOf (db : Database) (relations : List Schema) (filters : List Predicate)
    (edges : List Edge) : Except Error Plan := do
  checkCount relations.length edges.length
  match relations, edges with
  | [], _ => .error .noRelation
  | r :: _, [] => .ok (scan filters r)
  | _ :: _, e :: edges =>
    (chain [e.left, e.right] edges).map fun es =>
      (e :: es).foldl (joinTo db filters) (scan filters e.left)

/-- The plan depends on the database by the strategies of the joins only. -/
theorem planOf_congr {db db' : Database} {relations : List Schema} {filters : List Predicate}
    {edges : List Edge} (h : ∀ e ∈ edges, strategyFor db' e.left = strategyFor db e.left
      ∧ strategyFor db' e.right = strategyFor db e.right) :
    planOf db' relations filters edges = planOf db relations filters edges := by
  have hjoin : ∀ (plan : Plan) (e d : Edge), e.Walks d → d ∈ edges →
      joinTo db' filters plan e = joinTo db filters plan e := by
    rintro plan e d (rfl | rfl) hd
    · rw [joinTo, (h e hd).2, joinTo]
    · rw [joinTo, Edge.swapped, (h d hd).1, joinTo]
  unfold planOf
  refine bind_congr_of_ok fun _ _ => ?_
  cases relations with
  | nil => rfl
  | cons r relations =>
    cases edges with
    | nil => rfl
    | cons e edges =>
      dsimp only
      cases hchain : chain [e.left, e.right] edges with
      | error err => rfl
      | ok es =>
        obtain ⟨taken, hperm, hwalks⟩ := chain_eq_ok hchain
        have hall : List.Forall₂ Edge.Walks (e :: es) (e :: taken) := .cons (.inl rfl) hwalks
        have hes : ∀ c ∈ e :: es, ∃ d ∈ e :: edges, c.Walks d := fun c hc => by
          obtain ⟨d, hd, hw⟩ := exists_mem_of_forall₂ hall hc
          exact ⟨d, (hperm.cons e).subset hd, hw⟩
        refine congrArg Except.ok (List.foldl_ext _ _ _ fun plan c hc => ?_)
        obtain ⟨d, hd, hw⟩ := hes c hc
        exact hjoin plan c d hw hd

/-- The edges that the join predicates make. -/
def edgesOf (predicates : List Predicate) : List Edge := predicates.filterMap Edge.ofPredicate?

/-- Building gives the plan along the chain, whatever the store's layout. -/
theorem build_gives {db : Database} {relations : List Schema} {predicates : List Predicate}
    (hc : ∀ p ∈ predicates, p.kind ≠ .constant)
    (h : ∀ e ∈ edgesOf predicates, Countable db e.left ∧ Countable db e.right) :
    Gives (build db relations predicates)
      (planOf db relations (predicates.filter (! ·.isJoin)) (edgesOf predicates)) := by
  have hnone : (predicates.filter (! ·.isJoin)).find?
      (fun p => p.left.relation?.isNone && p.right.relation?.isNone) = none := by
    refine List.find?_eq_none.2 fun p hp hnone => ?_
    refine hc p (List.mem_filter.1 hp).1 ?_
    simp only [Bool.and_eq_true, Option.isNone_iff_eq_none] at hnone
    simp [Predicate.kind, hnone.1, hnone.2]
  have hedges : predicates.filterMap Edge.ofPredicate? = edgesOf predicates := rfl
  unfold build planOf
  simp only [hnone, hedges]
  refine (Gives.ofExcept _).andThen fun _ hcheck => ?_
  cases hedges : edgesOf predicates with
  | nil =>
    cases relations with
    | nil => exact Gives.throw _
    | cons r relations => exact Gives.pure _
  | cons e edges =>
    rw [hedges] at h hcheck
    obtain ⟨hfirst, hrest⟩ := List.forall_mem_cons.1 h
    refine (joinOn_gives hfirst.2).bind ?_
    cases relations with
    | nil => cases hcheck
    | cons r relations => exact grow_gives hrest

/-! ## Queries that have a tree -/

/-- The link that a join predicate makes between the names of its relations. -/
def link? (p : Predicate) : Option (String × String) :=
  match p.kind with
  | .join l r => some (l.name, r.name)
  | _ => none

/-- The links that the join predicates make, in the order of the predicates. -/
def links (predicates : List Predicate) : List (String × String) := predicates.filterMap link?

theorem links_eq (predicates : List Predicate) :
    links predicates = (edgesOf predicates).map Edge.link := by
  rw [links, edgesOf, List.map_filterMap]
  refine List.filterMap_congr fun p _ => ?_
  unfold link? Edge.ofPredicate?
  split
  · rename_i l r h
    split
    · rename_i h'
      rw [h] at h'
      cases h'
      rfl
    · rename_i h'
      exact absurd h (h' _ _)
  · rename_i h
    split
    · rename_i h'
      exact absurd h' (h _ _)
    · rfl

/-- The relations of an edge are those of its predicate's terms, and different ones. -/
theorem Edge.relations (e : Edge) : e.predicate.left.relation? = some e.left
    ∧ e.predicate.right.relation? = some e.right ∧ e.left.name ≠ e.right.name := by
  have h := e.isJoin
  unfold Predicate.kind at h
  split at h
  · rename_i l r hl hr
    split at h
    · cases h
    · rename_i hne
      cases h
      exact ⟨hl, hr, hne⟩
  · cases h
  · cases h
  · cases h

theorem predicate_mem_of_mem_edgesOf {predicates : List Predicate} {e : Edge}
    (h : e ∈ edgesOf predicates) : e.predicate ∈ predicates := by
  obtain ⟨p, hp, he⟩ := List.mem_filterMap.1 h
  unfold Edge.ofPredicate? at he
  split at he
  · cases he; exact hp
  · cases he

/-- A predicate that joins makes an edge. -/
theorem exists_ofPredicate? {p : Predicate} (h : p.isJoin = true) :
    ∃ e, Edge.ofPredicate? p = some e ∧ e.predicate = p := by
  unfold Predicate.isJoin at h
  split at h
  · rename_i l r hkind
    refine ⟨⟨p, l, r, hkind⟩, ?_, rfl⟩
    unfold Edge.ofPredicate?
    split
    · rename_i hkind'
      rw [hkind] at hkind'
      cases hkind'
      rfl
    · rename_i hkind'
      exact absurd hkind (hkind' l r)
  · cases h

theorem name_mem_of_readsFrom {relations : List Schema} {t : Term} {r : Schema}
    (h : t.ReadsFrom relations) (hr : t.relation? = some r) :
    r.name ∈ relations.map (·.name) := by
  cases t with
  | constant d => cases hr
  | attr a =>
    cases hr
    obtain ⟨q, hq, hname, -⟩ := h
    exact List.mem_map.2 ⟨q, hq, hname.symm⟩

/-- Relations are only joined if there is one edge less. -/
theorem length_of_checkCount {relations edges : Nat} {u : Unit}
    (h : checkCount relations edges = .ok u) : edges + 1 = relations := by
  unfold checkCount at h
  split at h
  · cases h
  · split at h
    · cases h
    · split at h
      · cases h
      · omega

section

variable (db : Database) (filters : List Predicate) {relations : List Schema} {edges : List Edge}

theorem planOf_of_few (h : edges.length + 1 < relations.length) :
    ∃ err, planOf db relations filters edges = .error err ∧ err.kind = .cartesianProduct := by
  have hpos : ¬ relations.length = 0 := by omega
  refine ⟨.tooFewJoins relations.length edges.length, ?_, rfl⟩
  unfold planOf
  rw [checkCount, if_neg hpos, if_pos h]
  rfl

theorem planOf_of_many (hne : relations ≠ []) (h : relations.length < edges.length + 1) :
    ∃ err, planOf db relations filters edges = .error err ∧ err.kind = .cycle := by
  have hpos : ¬ relations.length = 0 := by simpa using hne
  have hfew : ¬ edges.length + 1 < relations.length := by omega
  refine ⟨.tooManyJoins relations.length edges.length, ?_, rfl⟩
  unfold planOf
  rw [checkCount, if_neg hpos, if_neg hfew, if_pos h]
  rfl

/-- With as many edges as a tree has there is a plan if they span; else the first of them says
which failure it is. -/
theorem planOf_outcome (hn : (relations.map (·.name)).Nodup)
    (hends : ∀ e ∈ edges,
      e.left.name ∈ relations.map (·.name) ∧ e.right.name ∈ relations.map (·.name))
    (hlen : edges.length + 1 = relations.length) :
    (∃ plan, planOf db relations filters edges = .ok plan
        ∧ SpanningTree (relations.map (·.name)) (edges.map Edge.link))
      ∨ ∃ first err, (edges.map Edge.link).head? = some first
        ∧ planOf db relations filters edges = .error err
        ∧ ¬ SpanningTree (relations.map (·.name)) (edges.map Edge.link)
        ∧ (HasCycleFrom (edges.map Edge.link) first.1 ∧ err.kind = .cycle
          ∨ ¬ HasCycleFrom (edges.map Edge.link) first.1 ∧ err.kind = .cartesianProduct) := by
  have hcheck : checkCount relations.length edges.length = .ok () := by
    rw [checkCount, if_neg (by omega), if_neg (by omega), if_neg (by omega)]
  cases relations with
  | nil => simp at hlen
  | cons r relations =>
    cases edges with
    | nil =>
      obtain rfl : relations = [] := by simpa using hlen
      have hplan : planOf db [r] filters [] = .ok (scan filters r) := by
        unfold planOf
        rw [hcheck]
        rfl
      exact .inl ⟨_, hplan, rfl, by simpa using Linked.refl [] r.name⟩
    | cons e edges =>
      have hplan : planOf db (r :: relations) filters (e :: edges)
          = (chain [e.left, e.right] edges).map fun es =>
            (e :: es).foldl (joinTo db filters) (scan filters e.left) := by
        unfold planOf
        rw [hcheck]
        rfl
      rw [hplan]
      rcases chain_outcome hn hends e.relations.2.2 (by simpa using hlen) with
        ⟨es, hes, htree⟩ | ⟨err, herr, htree, hkind⟩
      · exact .inl ⟨_, by rw [hes]; rfl, htree⟩
      · exact .inr ⟨e.link, err, rfl, by rw [herr]; rfl, htree, hkind⟩

/-- There is a plan just when the edges span the relations. -/
theorem exists_planOf_iff (hne : relations ≠ []) (hn : (relations.map (·.name)).Nodup)
    (hends : ∀ e ∈ edges,
      e.left.name ∈ relations.map (·.name) ∧ e.right.name ∈ relations.map (·.name)) :
    (∃ plan, planOf db relations filters edges = .ok plan)
      ↔ SpanningTree (relations.map (·.name)) (edges.map Edge.link) := by
  have hlength : SpanningTree (relations.map (·.name)) (edges.map Edge.link) →
      edges.length + 1 = relations.length := fun h => by simpa using h.1
  rcases Nat.lt_trichotomy (edges.length + 1) relations.length with hlt | heq | hgt
  · obtain ⟨err, herr, -⟩ := planOf_of_few db filters hlt
    rw [herr]
    refine ⟨fun ⟨plan, h⟩ => ?_, fun h => ?_⟩
    · cases h
    · exact absurd (hlength h) (Nat.ne_of_lt hlt)
  · rcases planOf_outcome db filters hn hends heq with
      ⟨plan, hplan, htree⟩ | ⟨first, err, -, herr, htree, -⟩
    · exact ⟨fun _ => htree, fun _ => ⟨plan, hplan⟩⟩
    · rw [herr]
      refine ⟨fun ⟨plan, h⟩ => ?_, fun h => absurd h htree⟩
      cases h
  · obtain ⟨err, herr, -⟩ := planOf_of_many db filters hne hgt
    rw [herr]
    refine ⟨fun ⟨plan, h⟩ => ?_, fun h => ?_⟩
    · cases h
    · exact absurd (hlength h) (Nat.ne_of_gt hgt)

/-- With the right number of edges the first of them says why there is no plan. -/
theorem kind_of_planOf_eq_error (hn : (relations.map (·.name)).Nodup)
    (hends : ∀ e ∈ edges,
      e.left.name ∈ relations.map (·.name) ∧ e.right.name ∈ relations.map (·.name))
    (hlen : edges.length + 1 = relations.length) {err : Error}
    (h : planOf db relations filters edges = .error err) :
    ∃ first, (edges.map Edge.link).head? = some first
      ∧ (HasCycleFrom (edges.map Edge.link) first.1 → err.kind = .cycle)
      ∧ (¬ HasCycleFrom (edges.map Edge.link) first.1 → err.kind = .cartesianProduct) := by
  rcases planOf_outcome db filters hn hends hlen with
    ⟨plan, hplan, -⟩ | ⟨first, err', hfirst, herr, -, hkind⟩
  · rw [hplan] at h
    cases h
  · rw [herr] at h
    cases h
    refine ⟨first, hfirst, fun hcycle => ?_, fun hcycle => ?_⟩
    · exact (hkind.resolve_right fun h => h.1 hcycle).2
    · exact (hkind.resolve_left fun h => hcycle h.1).2

end

/-- `build` gives a plan just when the `links` of the predicates are a `SpanningTree` of the
relations. Otherwise too few of them leave something unconnected, too many close a cycle, and with
the right number it depends on what can be reached from the first (`HasCycleFrom`). -/
theorem build_gives_tree_iff {db : Database} {relations : List Schema}
    {predicates : List Predicate} (hne : relations ≠ []) (hn : (relations.map (·.name)).Nodup)
    (hp : ∀ p ∈ predicates, p.left.ReadsFrom relations ∧ p.right.ReadsFrom relations)
    (hc : ∀ p ∈ predicates, p.kind ≠ .constant)
    (hs : db.config.hashJoin = false ∨ ∀ r ∈ relations, ∃ t, db.store.contents r.name = .ok t) :
    ∃ result, Gives (build db relations predicates) result
      ∧ ((∃ plan, result = .ok plan) ↔ SpanningTree (relations.map (·.name)) (links predicates))
      ∧ ((links predicates).length + 1 < relations.length →
        ∃ err, result = .error err ∧ err.kind = .cartesianProduct)
      ∧ (relations.length < (links predicates).length + 1 →
        ∃ err, result = .error err ∧ err.kind = .cycle)
      ∧ ((links predicates).length + 1 = relations.length → ∀ err, result = .error err →
        ∃ first, (links predicates).head? = some first
          ∧ (HasCycleFrom (links predicates) first.1 → err.kind = .cycle)
          ∧ (¬ HasCycleFrom (links predicates) first.1 → err.kind = .cartesianProduct)) := by
  have hends : ∀ e ∈ edgesOf predicates,
      e.left.name ∈ relations.map (·.name) ∧ e.right.name ∈ relations.map (·.name) := by
    intro e he
    obtain ⟨hl, hr⟩ := hp _ (predicate_mem_of_mem_edgesOf he)
    exact ⟨name_mem_of_readsFrom hl e.relations.1, name_mem_of_readsFrom hr e.relations.2.1⟩
  have hcount : ∀ e ∈ edgesOf predicates, Countable db e.left ∧ Countable db e.right := by
    have hname : ∀ r : Schema, r.name ∈ relations.map (·.name) → Countable db r := by
      intro r hr
      refine hs.imp_right fun hs => ?_
      obtain ⟨q, hq, hqr⟩ := List.mem_map.1 hr
      rw [← hqr]
      exact hs q hq
    exact fun e he => ⟨hname _ (hends e he).1, hname _ (hends e he).2⟩
  have hlinks : (links predicates).length = (edgesOf predicates).length := by
    rw [links_eq, List.length_map]
  refine ⟨_, build_gives hc hcount, ?_, fun h => ?_, fun h => ?_, fun h err herr => ?_⟩
  · rw [links_eq]
    exact exists_planOf_iff db _ hne hn hends
  · exact planOf_of_few db _ (hlinks ▸ h)
  · exact planOf_of_many db _ hne (hlinks ▸ h)
  · rw [links_eq]
    exact kind_of_planOf_eq_error db _ hn hends (hlinks ▸ h) herr

/-- Three relations of numbers in a row have a tree. -/
theorem build_gives_tree_of_row :
    ∃ plan, Gives (build default [.numbers "a", .numbers "b", .numbers "c"]
      [⟨.number "a", .number "b"⟩, ⟨.number "c", .number "b"⟩]) (.ok plan) := by
  have hreads : ∀ name ∈ ["a", "b", "c"],
      (Term.number name).ReadsFrom [.numbers "a", .numbers "b", .numbers "c"] := by
    intro name hname
    have hmem := List.mem_map_of_mem (f := Schema.numbers) hname
    exact ⟨.numbers name, hmem, rfl, Nat.zero_lt_one⟩
  obtain ⟨result, hresult, hiff, -⟩ := @build_gives_tree_iff default
    [.numbers "a", .numbers "b", .numbers "c"]
    [⟨.number "a", .number "b"⟩, ⟨.number "c", .number "b"⟩]
    (List.cons_ne_nil _ _) (by decide) (by simp [hreads])
    (by simp [Predicate.kind, Term.relation?, Term.number, Schema.SameRelation, Schema.numbers])
    (.inl rfl)
  have hab : Linked [("a", "b"), ("c", "b")] "a" "b" := .of_mem (e := ("a", "b")) (by simp)
  have hcb : Linked [("a", "b"), ("c", "b")] "c" "b" := .of_mem (e := ("c", "b")) (by simp)
  have hb : ∀ name ∈ ["a", "b", "c"], Linked [("a", "b"), ("c", "b")] name "b" := by
    simpa using ⟨hab, .refl _ _, hcb⟩
  obtain ⟨plan, rfl⟩ := hiff.2 ⟨rfl, fun x hx y hy => (hb x hx).trans (hb y hy).symm⟩
  exact ⟨plan, hresult⟩

end RelQuery.JoinTree
