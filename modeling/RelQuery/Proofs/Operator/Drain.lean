/-
  Operators of query plans: opened and drained they give exactly the rows the plan stands for.

  `drained_eq_rows` is the statement, for every nesting of scans and joins of either strategy
  under projections; which strategies a plan names has no part in its rows
  (`rows_forgetStrategies`), so they can be exchanged at will. The induction is over the operator;
  what it carries is that the state of a run is ready and what is ahead of it.

  A projection sees no relations through another projection: `drained_twiceProjected`.
-/
import RelQuery.Proofs.Operator.Scan

namespace RelQuery

open Store (Layout)
open Source (Filters Hands Restarts Pairs ScanGood LoopGood HashGood Keyed rowsOf loopAhead
  hashAhead outputsOn joinsOf)

namespace Plan

/-- The plan with every join made a nested loop. -/
def forgetStrategies : Plan → Plan
  | join _ on left right => .join .nestedLoop on left.forgetStrategies right.forgetStrategies
  | project outputs input => .project outputs input.forgetStrategies
  | p => p

theorem scans_forgetStrategies (p : Plan) : p.forgetStrategies.scans = p.scans := by
  induction p with
  | join strategy on left right ihl ihr => simp only [forgetStrategies, scans, ihl, ihr]
  | project outputs input ih => exact ih
  | scan | create | drop | showTables | insert | explain => rfl

theorem rows_forgetStrategies (s : Store) (p : Plan) : p.forgetStrategies.rows s = p.rows s := by
  induction p with
  | join strategy on left right ihl ihr => simp only [forgetStrategies, rows, ihl, ihr]
  | project outputs input ih => simp only [forgetStrategies, rows, ih]
  | scan | create | drop | showTables | insert | explain => rfl

theorem joinable_forgetStrategies (p : Plan) : p.forgetStrategies.Joinable ↔ p.Joinable := by
  induction p with
  | join strategy on left right ihl ihr =>
    simp only [forgetStrategies, Joinable, ihl, ihr, scans_forgetStrategies]
  | project | scan | create | drop | showTables | insert | explain => rfl

/-- The relations whose tuples the rows of a plan carry: a projection forgets them. -/
def carried : Plan → List Schema
  | scan r _ => [r]
  | join _ _ left right => left.scans ++ right.scans
  | _ => []

/-- Projections over scans and joins; a projection reads attributes of the relations that its
input is allowed to show. -/
def Composed (shown : Plan → List Schema) : Plan → Prop
  | project outputs input => input.Composed shown ∧ ∀ t ∈ outputs, t.ReadsFrom (shown input)
  | p => p.Joinable

theorem carried_forgetStrategies (p : Plan) : p.forgetStrategies.carried = p.carried := by
  cases p <;> simp only [forgetStrategies, carried, scans_forgetStrategies]

theorem composed_forgetStrategies (p : Plan) :
    p.forgetStrategies.Composed carried ↔ p.Composed carried := by
  induction p with
  | project outputs input ih =>
    simp only [forgetStrategies, Composed, ih, carried_forgetStrategies]
  | join strategy on left right =>
    exact joinable_forgetStrategies (.join strategy on left right)
  | scan | create | drop | showTables | insert | explain => rfl

theorem Joinable.carried {p : Plan} (h : p.Joinable) : p.carried = p.scans := by
  cases p with
  | scan | join => rfl
  | project | create | drop | showTables | insert | explain => exact h.elim

end Plan

namespace Operator

/-! ## Operators and their plans -/

/-- The plan that an operator carries out. -/
def plan : Operator → Plan
  | scan r filter => .scan r filter
  | nestedLoop on left right => .join .nestedLoop on left.plan right.plan
  | hash on left right => .join .hash on left.plan right.plan
  | project outputs input => .project outputs input.plan

/-- Scans and joins have an operator, which can be restarted. -/
theorem ofPlan_of_joinable {p : Plan} (h : p.Joinable) :
    ∃ op, ofPlan p = .ok op ∧ op.plan = p ∧ op.restartable = true := by
  induction p with
  | scan r filter => exact ⟨.scan r filter, rfl, rfl, rfl⟩
  | join strategy on left right ihl ihr =>
    obtain ⟨l, hl, hlp, hlr⟩ := ihl h.1
    obtain ⟨r, hr, hrp, hrr⟩ := ihr h.2.1
    cases strategy with
    | nestedLoop =>
      refine ⟨.nestedLoop on l r, ?_, by simp [plan, hlp, hrp], by simp [restartable, hlr, hrr]⟩
      simp [ofPlan, hl, hr, hrr, bind, Except.bind, pure, Except.pure]
    | hash =>
      refine ⟨.hash on l r, ?_, by simp [plan, hlp, hrp], hlr⟩
      simp [ofPlan, hl, hr, bind, Except.bind, pure, Except.pure]
  | project | create | drop | showTables | insert | explain => exact h.elim

theorem ofPlan_of_composed {shown : Plan → List Schema} {p : Plan} (h : p.Composed shown) :
    ∃ op, ofPlan p = .ok op ∧ op.plan = p := by
  induction p with
  | project outputs input ih =>
    obtain ⟨op, hop, hplan⟩ := ih h.1
    refine ⟨.project outputs op, ?_, by rw [plan, hplan]⟩
    simp [ofPlan, hop, bind, Except.bind, pure, Except.pure]
  | scan | join =>
    obtain ⟨op, hop, hplan, -⟩ := ofPlan_of_joinable h
    exact ⟨op, hop, hplan⟩
  | create | drop | showTables | insert | explain => exact h.elim

/-! ## Runs -/

/-- The rows that are still to come in a run. -/
def ahead (s : Store) : (op : Operator) → op.State → List Row
  | scan r filter, c => rowsOf r filter (Source.entriesAhead s c)
  | nestedLoop on left right, st =>
    loopAhead (left.ahead s) (right.ahead s) on (right.plan.rows s) st
  | hash on left right, st => hashAhead (left.ahead s) on (right.plan.rows s) st
  | project outputs input, st => (input.ahead s st).map (outputsOn outputs)

/-- The run was opened on the tables of its relations, and holds what belongs to it. -/
def Ready (s : Store) : (op : Operator) → op.State → Prop
  | scan r _, c => ScanGood s r c
  | nestedLoop _ left right, st =>
    LoopGood (left.Ready s) (right.Ready s) (right.ahead s) (Row.Of left.plan.scans)
      (right.plan.rows s) st
  | hash on left right, st =>
    HashGood (left.Ready s) (Row.Of left.plan.scans) (Row.Of right.plan.scans) on
      (right.plan.rows s) st
  | project _ input, st => input.Ready s st

/-- Rows of the two sides of a join form pairs. -/
theorem pairs_of_reads {on : Predicate} {ls rs : List Schema} (hl : on.left.ReadsFrom ls)
    (hr : on.right.ReadsFrom rs) (hn : ((ls ++ rs).map (·.name)).Nodup) {l r : Row}
    (hlrow : l.Of ls) (hrrow : r.Of rs) : Pairs on l r := by
  have hn' := hn
  rw [List.map_append, List.nodup_append] at hn'
  exact ⟨Term.exists_value hl hlrow hn'.1, Term.exists_value hr hrrow hn'.2.1,
    Row.combine_eq_ok hlrow hrrow hn⟩

/-- Every relation that the plan scans is there, and no two have the same name. -/
structure Served (s : Store) (p : Plan) : Prop where
  serves : ∀ r ∈ p.scans, s.Serves r
  distinct : (p.scans.map (·.name)).Nodup

theorem Served.left {s : Store} {strategy : JoinStrategy} {on : Predicate} {l r : Plan}
    (h : Served s (.join strategy on l r)) : Served s l := by
  have hn := h.distinct
  rw [Plan.scans, List.map_append, List.nodup_append] at hn
  exact ⟨fun q hq => h.serves q (List.mem_append_left _ hq), hn.1⟩

theorem Served.right {s : Store} {strategy : JoinStrategy} {on : Predicate} {l r : Plan}
    (h : Served s (.join strategy on l r)) : Served s r := by
  have hn := h.distinct
  rw [Plan.scans, List.map_append, List.nodup_append] at hn
  exact ⟨fun q hq => h.serves q (List.mem_append_right _ hq), hn.2.1⟩

/-- Going back to the start puts all rows of the plan ahead. -/
theorem restarts_of_joinable {s : Store} {op : Operator} (hp : op.plan.Joinable)
    (hs : Served s op.plan) :
    (op.source s).Restarts (op.Ready s) (op.ahead s) (op.plan.rows s) := by
  induction op with
  | scan r filter => exact Restarts.scan (hs.serves r List.mem_cons_self)
  | nestedLoop on left right ihl ihr =>
    exact Restarts.nestedLoop (ihl hp.1 hs.left) (ihr hp.2.1 hs.right)
  | hash on left right ihl ihr => exact Restarts.hash (ihl hp.1 hs.left)
  | project outputs input => exact hp.elim

/-- An operator of scans and joins hands out what is ahead of it. -/
theorem hands_of_joinable {s : Store} {op : Operator} (hp : op.plan.Joinable)
    (hs : Served s op.plan) :
    (op.source s).Hands (op.Ready s) (op.ahead s) (Row.Of op.plan.scans) := by
  induction op with
  | scan r filter => exact Hands.scan hp
  | nestedLoop on left right ihl ihr =>
    exact (ihl hp.1 hs.left).nestedLoop (ihr hp.2.1 hs.right)
      (restarts_of_joinable hp.2.1 hs.right)
      (fun l r => pairs_of_reads hp.2.2.1 hp.2.2.2 hs.distinct)
      (fun r hr => Plan.of_mem_rows hp.2.1 hr)
      (fun l r => Row.beside_of)
  | hash on left right ihl ihr =>
    exact (ihl hp.1 hs.left).hash
      (fun l r => pairs_of_reads hp.2.2.1 hp.2.2.2 hs.distinct)
      (fun l hl => Term.exists_value hp.2.2.1 hl hs.left.distinct)
      (fun r hr => Plan.of_mem_rows hp.2.1 hr)
      (fun l r => Row.beside_of)
  | project outputs input => exact hp.elim

/-- Opening scans and joins for the first time puts all rows of the plan ahead. -/
theorem acquire_of_joinable {s : Store} {op : Operator} (hp : op.plan.Joinable)
    (hs : Served s op.plan) (l : Layout) :
    ∃ t m, op.acquire s op.initial l = (.ok (), t, m) ∧ op.Ready s t
      ∧ op.ahead s t = op.plan.rows s := by
  induction op generalizing l with
  | scan r filter =>
    have hserves := hs.serves r List.mem_cons_self
    obtain ⟨t, ht, -⟩ := id hserves
    obtain ⟨id, ho, rfl⟩ := Store.contents_eq_ok_iff_openTable.1 ht
    refine ⟨some (.start r.name id), l, ?_, ⟨_, rfl, .start hserves ho⟩, ?_⟩
    · rw [acquire_scan, Store.cursor, ho]
      rfl
    · exact (Source.rows_scan ht filter).symm
  | nestedLoop on left right ihl ihr =>
    obtain ⟨t, m, hl, ht, hta⟩ := ihl hp.1 hs.left l
    obtain ⟨u, k, hr, hu, hua⟩ := ihr hp.2.1 hs.right m
    refine ⟨⟨t, u, none, false⟩, k, ?_, ⟨ht, hu, by simp, fun _ => hua⟩, ?_⟩
    · refine (acquire_nestedLoop _).trans ?_
      simp only [initial, hl, hr]
    · show loopAhead (left.ahead s) (right.ahead s) on (right.plan.rows s) ⟨t, u, none, false⟩ = _
      simp [loopAhead, hta, plan, Plan.rows, joinsOf]
  | hash on left right ihl ihr =>
    obtain ⟨t, m, hl, ht, hta⟩ := ihl hp.1 hs.left l
    obtain ⟨u, k, hr, hu, hua⟩ := ihr hp.2.1 hs.right m
    have hempty : Keyed on.right [] [] := ⟨rfl, by simp⟩
    obtain ⟨filled, v, i, hc, -, hkeyed⟩ := (hands_of_joinable hp.2.1 hs.right).collect
      (fun r hr => Term.exists_value hp.2.2.2 hr hs.right.distinct) k hu hempty
    rw [List.nil_append, hua] at hkeyed
    refine ⟨⟨t, v, filled, [], false⟩, i, ?_, ⟨ht, hkeyed, by simp⟩, ?_⟩
    · refine (acquire_hash _).trans ?_
      simp only [initial, hl, hr, hc]
    · show hashAhead (left.ahead s) on (right.plan.rows s) ⟨t, v, filled, [], false⟩ = _
      simp [hashAhead, hta, plan, Plan.rows, joinsOf]
  | project outputs input => exact hp.elim

/-- An operator hands out what is ahead of it, and all that is shown of its rows has a value. -/
theorem hands_of_composed {s : Store} {op : Operator} (hp : op.plan.Composed Plan.carried)
    (hs : Served s op.plan) :
    ∃ fit, (op.source s).Hands (op.Ready s) (op.ahead s) fit
      ∧ ∀ row, fit row → ∀ t : Term, t.ReadsFrom op.plan.carried → ∃ d, t.value row = .ok d := by
  induction op with
  | scan | nestedLoop | hash =>
    refine ⟨_, hands_of_joinable hp hs, fun row hrow t ht => ?_⟩
    rw [Plan.Joinable.carried hp] at ht
    exact Term.exists_value ht hrow hs.distinct
  | project outputs input ih =>
    obtain ⟨fit, hands, hval⟩ := ih hp.1 ⟨hs.serves, hs.distinct⟩
    refine ⟨_, hands.project fun row hrow t ht => hval row hrow t (hp.2 t ht), ?_⟩
    rintro row - t ht
    cases t with
    | constant d => exact ⟨d, rfl⟩
    | attr a =>
      obtain ⟨r, hr, -⟩ := ht
      cases hr

theorem acquire_of_composed {shown : Plan → List Schema} {s : Store} {op : Operator}
    (hp : op.plan.Composed shown) (hs : Served s op.plan) (l : Layout) :
    ∃ t m, op.acquire s op.initial l = (.ok (), t, m) ∧ op.Ready s t
      ∧ op.ahead s t = op.plan.rows s := by
  induction op with
  | scan | nestedLoop | hash => exact acquire_of_joinable hp hs l
  | project outputs input ih =>
    obtain ⟨t, m, hacquire, ht, ha⟩ := ih hp.1 ⟨hs.serves, hs.distinct⟩
    refine ⟨t, m, hacquire, ht, ?_⟩
    show (input.ahead s t).map (outputsOn outputs) = _
    rw [ha]
    rfl

/-! ## Draining -/

/-- All rows that an operator gives when it is opened for the first time and asked until there
are none. -/
def drained (s : Store) (op : Operator) (l : Layout) : Except Error (List Row) :=
  match op.acquire s op.initial l with
  | (.error e, _, _) => .error e
  | (.ok (), t, m) => ((op.source s).drain .ok t m).1

theorem mapM_eq_ok {α β : Type} {as : List α} {f : α → Except Error β} {g : α → β}
    (h : ∀ a ∈ as, f a = .ok (g a)) : as.mapM f = .ok (as.map g) := by
  induction as with
  | nil => rfl
  | cons a as ih =>
    obtain ⟨ha, has⟩ := List.forall_mem_cons.1 h
    rw [List.mapM_cons, ha, ih has]
    rfl

/-- The operator of a plan gives the rows that the plan stands for. -/
theorem drained_ofPlan {s : Store} {p : Plan} (hp : p.Composed Plan.carried) (hs : Served s p) :
    ∃ op, ofPlan p = .ok op ∧ ∀ l, op.drained s l = .ok (p.rows s) := by
  obtain ⟨op, hop, rfl⟩ := ofPlan_of_composed hp
  refine ⟨op, hop, fun l => ?_⟩
  obtain ⟨t, m, hacquire, ht, ha⟩ := acquire_of_composed hp hs l
  obtain ⟨fit, hands, -⟩ := hands_of_composed hp hs
  rw [drained, hacquire]
  simp only
  rw [hands.drain .ok m ht, mapM_eq_ok fun _ _ => rfl, List.map_id', ha]

/-- The operator of a `Composed` plan that is `Served` gives `Plan.rows`, in order, when it is
`drained`, and so does that of every plan with other join strategies. -/
theorem drained_eq_rows {s : Store} {p : Plan} (hp : p.Composed Plan.carried)
    (hs : Served s p) :
    (∃ op, ofPlan p = .ok op ∧ ∀ l, op.drained s l = .ok (p.rows s))
      ∧ ∀ q : Plan, q.forgetStrategies = p.forgetStrategies →
        ∃ op, ofPlan q = .ok op ∧ ∀ l, op.drained s l = .ok (p.rows s) := by
  refine ⟨drained_ofPlan hp hs, fun q hq => ?_⟩
  have hscans : q.scans = p.scans := by
    rw [← Plan.scans_forgetStrategies q, hq, Plan.scans_forgetStrategies]
  have hrows : q.rows s = p.rows s := by
    rw [← Plan.rows_forgetStrategies s q, hq, Plan.rows_forgetStrategies]
  have hq' : q.Composed Plan.carried := by
    rw [← Plan.composed_forgetStrategies, hq, Plan.composed_forgetStrategies]
    exact hp
  rw [← hrows]
  exact drained_ofPlan hq' ⟨by rw [hscans]; exact hs.serves, by rw [hscans]; exact hs.distinct⟩

/-! ## Two small relations -/

theorem serves_of_isOk {s : Store} {r : Schema} {t : Table} (h : s.contents r.name = .ok t)
    (hd : t.entries.all (fun e => (Tuple.decode r e.2).isOk) = true) : s.Serves r := by
  refine ⟨t, h, fun e he => ?_⟩
  have hok := List.all_eq_true.1 hd e he
  cases hu : Tuple.decode r e.2 with
  | error err => rw [hu] at hok; cases hok
  | ok u => exact ⟨u, rfl⟩

/-- Two relations of numbers that hold a seven each, the second also an eight. -/
def sevens : Store :=
  let s := (Store.volatile.create "a").create "b"
  ((s.write 0 [0] (Datum.encode (.int 7))).write 1 [1] (Datum.encode (.int 7))).write 1 [2]
    (Datum.encode (.int 8))

theorem serves_sevens : sevens.Serves (.numbers "a") ∧ sevens.Serves (.numbers "b") :=
  ⟨serves_of_isOk rfl rfl, serves_of_isOk rfl rfl⟩

/-- The numbers that both relations hold. -/
def commonNumbers (strategy : JoinStrategy) : Plan :=
  .project [.number "b"]
    (.join strategy ⟨.number "a", .number "b"⟩ (.scan (.numbers "a") []) (.scan (.numbers "b") []))

theorem served_commonNumbers (strategy : JoinStrategy) : Served sevens (commonNumbers strategy) :=
  ⟨by simpa [commonNumbers, Plan.scans] using serves_sevens, by cases strategy <;> decide⟩

theorem composed_commonNumbers (strategy : JoinStrategy) :
    (commonNumbers strategy).Composed Plan.carried := by
  simp [commonNumbers, Plan.Composed, Plan.Joinable, Plan.carried, Plan.scans, Term.number,
    Schema.numbers, Term.ReadsFrom, Schema.SameRelation, Schema.arity]

theorem drained_commonNumbers :
    ((∃ op, ofPlan (commonNumbers .hash) = .ok op
        ∧ ∀ l, op.drained sevens l = .ok [.projected [.int 7]])
      ∧ ∀ q : Plan, q.forgetStrategies = (commonNumbers .hash).forgetStrategies →
        ∃ op, ofPlan q = .ok op ∧ ∀ l, op.drained sevens l = .ok [.projected [.int 7]]) := by
  have h := drained_eq_rows (composed_commonNumbers .hash) (served_commonNumbers .hash)
  have hrows : (commonNumbers .hash).rows sevens = [.projected [.int 7]] := rfl
  rwa [hrows] at h

/-! ## Projections of projections -/

/-- A projection cannot read an attribute through another one: the first row is a failure. -/
theorem drained_projected_attr {s : Store} {outputs : List Term} {input : Plan}
    {a : BoundAttribute} {row : Row} {rows : List Row}
    (hp : (Plan.project outputs input).Composed Plan.carried)
    (hs : Served s (.project outputs input))
    (hrows : (Plan.project outputs input).rows s = row :: rows) :
    ∃ op, ofPlan (.project [.attr a] (.project outputs input)) = .ok op
      ∧ ∀ l, op.drained s l = .error (.relationNotInRow row.text a.relation.name) := by
  obtain ⟨op, hop, hplan⟩ := ofPlan_of_composed hp
  rw [← hplan] at hp hs hrows
  refine ⟨.project [.attr a] op, by rw [ofPlan, hop]; rfl, fun l => ?_⟩
  obtain ⟨t, m, hacquire, ht, ha⟩ := acquire_of_composed hp hs l
  obtain ⟨fit, hands, -⟩ := hands_of_composed hp hs
  obtain ⟨u, k, hn, -, -⟩ := hands.next m ht
  rw [ha, hrows] at hn
  obtain ⟨vs, rfl⟩ : ∃ vs, row = .projected vs := by
    rw [hplan, Plan.rows] at hrows
    obtain ⟨input, -, hrow⟩ := List.mem_map.1 (hrows ▸ List.mem_cons_self : row ∈ _)
    exact ⟨_, hrow.symm⟩
  have hopened : (Operator.project [.attr a] op).acquire s (Operator.project [.attr a] op).initial l
      = (.ok (), t, m) := hacquire
  have hfirst : ((Operator.project [.attr a] op).source s).next t m
      = (.error (.relationNotInRow (Row.projected vs).text a.relation.name), u, k) := by
    simp only [source, Source.project, hn, List.head?_cons]
    rfl
  rw [drained, hopened]
  exact Source.drain_of_error _ hfirst

/-- A plan in which every output is an attribute of a scanned relation, but read twice. -/
def twiceProjected : Plan :=
  .project [.number "a"] (.project [.number "a"] (.scan (.numbers "a") []))

/-- All that is asked of a plan holds of this one, if a projection may read the relations scanned
anywhere below it, and its operator fails. -/
theorem drained_twiceProjected :
    twiceProjected.Composed Plan.scans ∧ Served sevens twiceProjected
      ∧ twiceProjected.rows sevens ≠ []
      ∧ ∃ op, ofPlan twiceProjected = .ok op
        ∧ ∀ l, op.drained sevens l = .error (.relationNotInRow "7" "a") := by
  have hserved : Served sevens twiceProjected :=
    ⟨by simpa [twiceProjected, Plan.scans] using serves_sevens.1, by decide⟩
  refine ⟨?_, hserved, by simp [show twiceProjected.rows sevens = [.projected []] from rfl], ?_⟩
  · simp [twiceProjected, Plan.Composed, Plan.Joinable, Plan.scans, Term.number, Schema.numbers,
      Term.ReadsFrom, Schema.SameRelation, Schema.arity]
  · have hp : (Plan.project [.number "a"] (.scan (.numbers "a") [])).Composed Plan.carried := by
      simp [Plan.Composed, Plan.Joinable, Plan.carried, Term.number, Schema.numbers, Term.ReadsFrom,
        Schema.SameRelation, Schema.arity]
    have hrows : (Plan.project [Term.number "a"] (.scan (.numbers "a") [])).rows sevens
        = [.projected [.int 7]] := rfl
    exact drained_projected_attr hp ⟨hserved.serves, hserved.distinct⟩ hrows

end Operator

end RelQuery
