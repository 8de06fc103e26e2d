/-
  Join trees: how the relations of a query are joined by its predicates.

  The first join predicate joins two scans; after it, always the first predicate that leads
  from the joined relations to another one adds a scan of that one on the right. Predicates on
  one relation go into its scan. The predicates have to form a tree over the relations: too
  few leave something unconnected, too many close a cycle.
-/
import RelQuery.Plan
import RelQuery.Database

namespace RelQuery.JoinTree

open Log (report)

/-- A predicate between two relations. -/
structure Edge where
  predicate : Predicate
  left : Schema
  right : Schema
  isJoin : predicate.kind = .join left right

namespace Edge

def ofPredicate? (p : Predicate) : Option Edge :=
  match h : p.kind with
  | .join left right => some ⟨p, left, right, h⟩
  | _ => none

/-- The same edge walked the other way. -/
def swapped (e : Edge) : Edge where
  predicate := e.predicate.swapped
  left := e.right
  right := e.left
  isJoin := by
    have h := e.isJoin
    unfold Predicate.kind at h ⊢
    split at h
    · split at h
      · cases h
      · rename_i hl hr hne
        cases h
        have hne' : ¬ e.right.SameRelation e.left := fun h => hne (Eq.symm h)
        simp [Predicate.swapped, hl, hr, hne']
    all_goals cases h

end Edge

/-- Whether a relation is among those that are joined. -/
def isJoined (joined : List Schema) (r : Schema) : Bool := joined.any (·.SameRelation r)

/-- The first edge that leads from the joined relations to a new one, walked that way, and the
edges besides it. An edge within the joined relations that comes before it closes a cycle. -/
def pick (joined : List Schema) : List Edge → Except Error (Option (Edge × List Edge))
  | [] => .ok none
  | e :: edges =>
    match isJoined joined e.left, isJoined joined e.right with
    | true, true => .error (.closesCycle e.predicate.text)
    | true, false => .ok (some (e, edges))
    | false, true => .ok (some (e.swapped, edges))
    | false, false => do
      match ← pick joined edges with
      | some (f, rest) => return some (f, e :: rest)
      | none => return none

theorem length_of_pick {joined : List Schema} {edges rest : List Edge} {e : Edge}
    (h : pick joined edges = .ok (some (e, rest))) : rest.length < edges.length := by
  induction edges generalizing e rest with
  | nil => cases h
  | cons d edges ih =>
    rw [pick] at h
    split at h
    · cases h
    · cases h; exact Nat.lt_succ_self _
    · cases h; exact Nat.lt_succ_self _
    · cases hp : pick joined edges with
      | error err => rw [hp] at h; cases h
      | ok found =>
        rw [hp] at h
        cases found with
        | none => cases h
        | some f =>
          cases h
          exact Nat.succ_lt_succ (@ih f.2 f.1 hp)

/-- The number of rows of a relation. -/
def countRows (store : Store) (r : Schema) : Reading Nat :=
  .of fun l =>
    match { store with layout := l }.walk r.name with
    | .ok (table, store) => (.ok table.size, store.layout)
    | .error e => (.error e, l)

/-- A hash table is built if the settings allow it and the relation on the right is small. -/
def chooseStrategy (db : Database) (on : Predicate) (right : Schema) : Reading JoinStrategy :=
  if db.config.hashJoin then do
    let rows ← countRows db.store right
    let strategy : JoinStrategy := if rows ≤ db.config.maxBuildRows then .hash else .nestedLoop
    report .debug ("Join on " ++ on.text ++ " uses " ++ strategy.text ++ " (" ++ toString rows
      ++ " rows on the right)")
    return strategy
  else return .nestedLoop

/-- The scan of a relation with the predicates that belong to it. -/
def scan (filters : List Predicate) (r : Schema) : Plan :=
  .scan r (filters.filter (·.scans r))

/-- Joins the relation at the far end of an edge to a plan. -/
def joinOn (db : Database) (filters : List Predicate) (left : Plan) (e : Edge) :
    Reading Plan := do
  let strategy ← chooseStrategy db e.predicate e.right
  return .join strategy e.predicate left (scan filters e.right)

/-- Joins all that the edges lead to. -/
def grow (db : Database) (filters : List Predicate) (joined : List Schema) (plan : Plan)
    (edges : List Edge) : Reading Plan :=
  if edges.isEmpty then return plan
  else match h : pick joined edges with
    | .error e => throw e
    | .ok none => throw (.unconnected (edges.map (·.predicate.text)))
    | .ok (some (e, rest)) => do
      have := length_of_pick h
      let plan ← joinOn db filters plan e
      grow db filters (joined ++ [e.right]) plan rest
termination_by edges.length

/-- Whether there are as many edges as a tree over the relations has. -/
def checkCount (relations edges : Nat) : Except Error Unit :=
  if relations = 0 then .error .noRelation
  else if edges + 1 < relations then .error (.tooFewJoins relations edges)
  else if relations < edges + 1 then .error (.tooManyJoins relations edges)
  else .ok ()

/-- The plan that joins the relations of a query by its predicates. -/
def build (db : Database) (relations : List Schema) (predicates : List Predicate) :
    Reading Plan := do
  let edges := predicates.filterMap Edge.ofPredicate?
  let filters := predicates.filter (! ·.isJoin)
  if let some p := filters.find? fun p => p.left.relation?.isNone && p.right.relation?.isNone then
    throw (.constantPredicate p.text)
  MonadExcept.ofExcept (checkCount relations.length edges.length)
  match edges with
  | [] =>
    match relations with
    | [] => throw .noRelation
    | r :: _ => return scan filters r
  | e :: edges => do
    let plan ← joinOn db filters (scan filters e.left) e
    grow db filters [e.left, e.right] plan edges

end RelQuery.JoinTree
