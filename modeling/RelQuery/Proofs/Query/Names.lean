/-
  What names mean in a scope of different relations.

  A qualified name is looked up by its relation, an unqualified one among all relations, and a star
  lists what there is: three ways to the same attributes. What a name can mean at all is said
  without them (`Scope.Offers`). A name is resolved if that is one attribute, and which way it fails
  tells how many there are.

  A query may therefore be written with qualified names only, and with its select list written out:
  it is bound in the same way, warnings and failures included.

  Main statement: `Scope.resolves`.
-/
import RelQuery.Proofs.Query.Binding

namespace RelQuery

/-! ## Attributes by name -/

namespace Schema

/-- The attribute at the position has the name. -/
def Has (r : Schema) (name : String) (p : Nat) : Prop :=
  (r.attributes[p]?).map (·.name) = some name

instance (r : Schema) (name : String) (p : Nat) : Decidable (r.Has name p) :=
  inferInstanceAs (Decidable (_ = _))

variable {r : Schema} {name : String}

/-- Attributes of one relation have different names, so the first of a name is the only one. -/
theorem position?_eq_some_iff {p : Nat} : r.position? name = some p ↔ r.Has name p := by
  have hhas : r.Has name p ↔ (r.attributes.map (·.name))[p]? = some name := by
    rw [Has, List.getElem?_map]
  rw [hhas, List.getElem?_eq_some_iff, position?, List.findIdx?_eq_some_iff_getElem]
  constructor
  · rintro ⟨hlt, hname, -⟩
    exact ⟨by simpa using hlt, by simpa using hname⟩
  · rintro ⟨hlt, hname⟩
    have hlt' : p < r.attributes.length := by simpa using hlt
    refine ⟨hlt', by simpa using hname, ?_⟩
    intro i hi hother
    have hi' : i < (r.attributes.map (·.name)).length := by
      rw [List.length_map]
      omega
    have hsame : (r.attributes.map (·.name))[i] = (r.attributes.map (·.name))[p] := by
      rw [hname]
      simpa using hother
    have heq : i = p := (r.names_nodup.getElem_inj_iff).1 hsame
    omega

theorem position?_eq_none_iff : r.position? name = none ↔ ∀ p, ¬ r.Has name p := by
  constructor
  · intro h p hp
    rw [position?_eq_some_iff.2 hp] at h
    cases h
  · intro h
    cases hp : r.position? name with
    | none => rfl
    | some p => exact absurd (position?_eq_some_iff.1 hp) (h p)

end Schema

namespace Scope

/-- The attribute is in scope, and the name can stand for it. -/
structure Offers (s : Scope) (n : AttributeName) (a : BoundAttribute) : Prop where
  inScope : a.relation ∈ s.relations
  speaks : n.speaksOf a.relation = true
  has : a.relation.Has n.name a.position

variable {s : Scope} {name : String} {a b : BoundAttribute}

/-- What a name means without its relation is what it means with one of its relations. -/
theorem Offers.qualified (h : s.Offers ⟨none, name⟩ a) :
    s.Offers ⟨some a.relation.name, name⟩ a :=
  ⟨h.inScope, decide_eq_true rfl, h.has⟩

theorem Offers.unqualified {q : String} (h : s.Offers ⟨some q, name⟩ a) :
    s.Offers ⟨none, name⟩ a :=
  ⟨h.inScope, rfl, h.has⟩

theorem Offers.relation_eq {q : String} (h : s.Offers ⟨some q, name⟩ a) : a.relation.name = q :=
  (of_decide_eq_true h.speaks).symm

/-! ## Unqualified names -/

theorem mem_candidates_iff : a ∈ s.candidates name ↔ s.Offers ⟨none, name⟩ a := by
  rw [candidates, List.mem_filterMap]
  constructor
  · rintro ⟨r, hr, hra⟩
    obtain ⟨p, hp, rfl⟩ := Option.map_eq_some_iff.1 hra
    exact ⟨hr, rfl, Schema.position?_eq_some_iff.1 hp⟩
  · intro h
    refine ⟨a.relation, h.inScope, ?_⟩
    rw [Schema.position?_eq_some_iff.2 h.has]
    rfl

/-- Each relation has one candidate at most. -/
theorem candidates_pairwise (hn : (s.relations.map (·.name)).Nodup) (name : String) :
    (s.candidates name).Pairwise fun a b => a.relation ≠ b.relation := by
  have hrelations : s.relations.Nodup := .of_map _ hn
  refine List.Pairwise.filterMap _ ?_ hrelations
  intro r r' hne a ha b hb
  obtain ⟨p, -, rfl⟩ := Option.map_eq_some_iff.1 ha
  obtain ⟨p', -, rfl⟩ := Option.map_eq_some_iff.1 hb
  exact hne

theorem resolveAnywhere_eq_ok_iff (hn : (s.relations.map (·.name)).Nodup) :
    s.resolve ⟨none, name⟩ = .ok a
      ↔ s.Offers ⟨none, name⟩ a ∧ ∀ b, s.Offers ⟨none, name⟩ b → b.relation = a.relation := by
  have hapart := candidates_pairwise hn name
  simp only [← mem_candidates_iff]
  show s.resolveAnywhere name = .ok a ↔ _
  unfold resolveAnywhere
  cases hc : s.candidates name with
  | nil => simp
  | cons c more =>
    cases more with
    | nil =>
      simp only [Except.ok.injEq, List.mem_singleton, forall_eq]
      constructor
      · rintro rfl
        exact ⟨rfl, rfl⟩
      · rintro ⟨rfl, -⟩
        rfl
    | cons d more =>
      rw [hc, List.pairwise_cons] at hapart
      have hcd : c.relation ≠ d.relation := hapart.1 d List.mem_cons_self
      refine iff_of_false nofun ?_
      rintro ⟨-, honly⟩
      have hc := honly c List.mem_cons_self
      have hd := honly d (List.mem_cons_of_mem _ List.mem_cons_self)
      exact hcd (hc.trans hd.symm)

/-- An unqualified name is ambiguous if it stands for attributes of two relations. -/
theorem ambiguous_iff (hn : (s.relations.map (·.name)).Nodup) :
    (∃ e, s.resolve ⟨none, name⟩ = .error e ∧ e.kind = .ambiguousAttribute)
      ↔ ∃ a b, s.Offers ⟨none, name⟩ a ∧ s.Offers ⟨none, name⟩ b ∧ a.relation ≠ b.relation := by
  have hapart := candidates_pairwise hn name
  simp only [← mem_candidates_iff]
  show (∃ e, s.resolveAnywhere name = .error e ∧ _) ↔ _
  unfold resolveAnywhere
  cases hc : s.candidates name with
  | nil => simp [Error.kind]
  | cons c more =>
    cases more with
    | nil => simp
    | cons d more =>
      rw [hc, List.pairwise_cons] at hapart
      have hcd : c.relation ≠ d.relation := hapart.1 d List.mem_cons_self
      refine iff_of_true ⟨_, rfl, rfl⟩ ⟨c, d, ?_, ?_, hcd⟩
      · exact List.mem_cons_self
      · exact List.mem_cons_of_mem _ List.mem_cons_self

theorem unknown_iff :
    (∃ e, s.resolve ⟨none, name⟩ = .error e ∧ e.kind = .unknownAttribute)
      ↔ ∀ a, ¬ s.Offers ⟨none, name⟩ a := by
  simp only [← mem_candidates_iff]
  show (∃ e, s.resolveAnywhere name = .error e ∧ _) ↔ _
  unfold resolveAnywhere
  cases s.candidates name with
  | nil => simp [Error.kind]
  | cons c more =>
    cases more with
    | nil => simp
    | cons d more =>
      refine iff_of_false ?_ fun h => h c List.mem_cons_self
      rintro ⟨e, he, hkind⟩
      cases he
      cases hkind

/-! ## Qualified names -/

variable {q : String}

theorem resolveIn_eq_ok_iff (hn : (s.relations.map (·.name)).Nodup) :
    s.resolve ⟨some q, name⟩ = .ok a ↔ s.Offers ⟨some q, name⟩ a := by
  show s.resolveIn q name = .ok a ↔ _
  constructor
  · intro h
    obtain ⟨hmem, hspeaks, hp, -⟩ := resolve_eq_ok (n := ⟨some q, name⟩) h
    exact ⟨hmem, hspeaks, Schema.position?_eq_some_iff.1 hp⟩
  · intro h
    have hfind : s.relations.find? (·.name = q) = some a.relation :=
      (find?_eq_some_iff hn).2 ⟨h.inScope, h.relation_eq⟩
    have hp : a.relation.position? name = some a.position :=
      Schema.position?_eq_some_iff.2 h.has
    unfold resolveIn
    rw [hfind]
    dsimp only
    rw [hp]

theorem unresolved_iff :
    (∃ e, s.resolve ⟨some q, name⟩ = .error e ∧ e.kind = .unresolvedRelation)
      ↔ ∀ r ∈ s.relations, r.name ≠ q := by
  show (∃ e, s.resolveIn q name = .error e ∧ _) ↔ _
  unfold resolveIn
  split
  · rename_i hfind
    refine iff_of_true ⟨_, rfl, rfl⟩ ?_
    simpa using hfind
  · rename_i r hfind
    have hname : r.name = q := by simpa using List.find?_some hfind
    refine iff_of_false ?_ fun h => h r (List.mem_of_find?_eq_some hfind) hname
    rintro ⟨e, he, hkind⟩
    split at he
    · cases he
      cases hkind
    · cases he

theorem unknownIn_iff (hn : (s.relations.map (·.name)).Nodup) :
    (∃ e, s.resolve ⟨some q, name⟩ = .error e ∧ e.kind = .unknownAttribute)
      ↔ (∃ r ∈ s.relations, r.name = q) ∧ ∀ a, ¬ s.Offers ⟨some q, name⟩ a := by
  constructor
  · rintro ⟨e, he, hkind⟩
    refine ⟨?_, ?_⟩
    · by_contra hnone
      obtain ⟨e', he', hkind'⟩ : ∃ e, s.resolve ⟨some q, name⟩ = .error e
          ∧ e.kind = .unresolvedRelation :=
        unresolved_iff.2 fun r hr hname => hnone ⟨r, hr, hname⟩
      rw [he] at he'
      cases he'
      rw [hkind] at hkind'
      cases hkind'
    · intro a ha
      rw [(resolveIn_eq_ok_iff hn).2 ha] at he
      cases he
  · rintro ⟨⟨r, hr, hname⟩, hnone⟩
    have hfind : s.relations.find? (·.name = q) = some r := (find?_eq_some_iff hn).2 ⟨hr, hname⟩
    have hp : r.position? name = none := by
      rw [Schema.position?_eq_none_iff]
      intro p hp
      exact hnone ⟨r, p⟩ ⟨hr, decide_eq_true hname.symm, hp⟩
    refine ⟨.unknownAttribute q name, ?_, rfl⟩
    show s.resolveIn q name = _
    unfold resolveIn
    rw [hfind]
    dsimp only
    rw [hp]

/-! ## Names in full -/

/-- An unqualified name that is resolved means the same with its relation. -/
theorem resolve_of_unqualified (hn : (s.relations.map (·.name)).Nodup)
    (h : s.resolve ⟨none, name⟩ = .ok a) : s.resolve ⟨some a.relation.name, name⟩ = .ok a := by
  have hoffers := ((resolveAnywhere_eq_ok_iff hn).1 h).1
  exact (resolveIn_eq_ok_iff hn).2 hoffers.qualified

/-- The qualified name of every attribute of the scope, relation by relation. -/
def names (s : Scope) : List AttributeName :=
  s.relations.flatMap fun r => r.attributes.map fun a => ⟨some r.name, a.name⟩

/-- The attributes of one relation are resolved to its positions. -/
theorem forall₂_resolve_attributes (hn : (s.relations.map (·.name)).Nodup) {r : Schema}
    (hr : r ∈ s.relations) :
    List.Forall₂ (fun n a => s.resolve n = .ok a)
      (r.attributes.map fun a => ⟨some r.name, a.name⟩)
      ((List.range r.arity).map fun p => ⟨r, p⟩) := by
  refine List.forall₂_iff_get.2 ⟨by simp [Schema.arity], ?_⟩
  intro p hp hp'
  have hlt : p < r.attributes.length := by simpa using hp
  have hhas : r.Has r.attributes[p].name p := by
    rw [Schema.Has, List.getElem?_eq_getElem hlt]
    rfl
  have hoffers : s.Offers ⟨some r.name, r.attributes[p].name⟩ ⟨r, p⟩ :=
    ⟨hr, decide_eq_true rfl, hhas⟩
  simpa using (resolveIn_eq_ok_iff hn).2 hoffers

/-- The names of all attributes are resolved to all attributes. -/
theorem forall₂_resolve_names (hn : (s.relations.map (·.name)).Nodup) :
    List.Forall₂ (fun n a => s.resolve n = .ok a) s.names s.expandAll := by
  have hall : ∀ rs ⊆ s.relations, List.Forall₂ (fun n a => s.resolve n = .ok a)
      (rs.flatMap fun r => r.attributes.map fun a => ⟨some r.name, a.name⟩)
      (rs.flatMap fun r => (List.range r.arity).map fun p => ⟨r, p⟩) := by
    intro rs hrs
    induction rs with
    | nil => exact .nil
    | cons r rs ih =>
      obtain ⟨hr, hrs⟩ := List.cons_subset.1 hrs
      rw [List.flatMap_cons, List.flatMap_cons]
      exact List.rel_append (forall₂_resolve_attributes hn hr) (ih hrs)
  exact hall s.relations (List.Subset.refl _)

/-- Each attribute of the scope is what its qualified name means. -/
theorem resolve_of_mem_expandAll (hn : (s.relations.map (·.name)).Nodup) (h : a ∈ s.expandAll) :
    ∃ name, a.relation.Has name a.position
      ∧ s.resolve ⟨some a.relation.name, name⟩ = .ok a := by
  obtain ⟨⟨q, name⟩, hmem, hn'⟩ := exists_mem_of_forall₂ (forall₂_resolve_names hn).flip h
  obtain ⟨r, -, hmem⟩ := List.mem_flatMap.1 hmem
  obtain ⟨_, -, hname⟩ := List.mem_map.1 hmem
  cases hname
  have hoffers := (resolveIn_eq_ok_iff hn).1 hn'
  refine ⟨_, hoffers.has, ?_⟩
  rw [hoffers.relation_eq]
  exact hn'

end Scope

/-! ## Queries in full -/

/-- The name with the relation that it means, if it means one. -/
def AttributeName.qualifiedIn (s : Scope) (n : AttributeName) : AttributeName :=
  match s.resolve n with
  | .ok a => ⟨some a.relation.name, n.name⟩
  | .error _ => n

def Operand.qualifiedIn (s : Scope) : Operand → Operand
  | constant d => .constant d
  | attr n => .attr (n.qualifiedIn s)

def Comparison.qualifiedIn (s : Scope) (c : Comparison) : Comparison :=
  ⟨c.left.qualifiedIn s, c.right.qualifiedIn s⟩

namespace Query

/-- The query with all names qualified. -/
def qualifiedIn (s : Scope) (q : Query) : Query where
  relations := q.relations
  comparisons := q.comparisons.map (·.qualifiedIn s)
  outputs := q.outputs.map (·.qualifiedIn s)
  distinct := q.distinct
  orderBy := q.orderBy.map (·.map (·.qualifiedIn s))

/-- The query with its select list written out, if it has none. -/
def listedIn (s : Scope) (q : Query) : Query :=
  { q with outputs := if q.outputs = [] then s.names else q.outputs }

end Query

section

variable {s : Scope} (hn : (s.relations.map (·.name)).Nodup)

include hn

theorem Scope.resolve_qualifiedIn (n : AttributeName) :
    s.resolve (n.qualifiedIn s) = s.resolve n := by
  unfold AttributeName.qualifiedIn
  split
  · rename_i a ha
    rw [ha]
    obtain ⟨relation, name⟩ := n
    cases relation with
    | none => exact resolve_of_unqualified hn ha
    | some q =>
      rw [← ha, ((resolveIn_eq_ok_iff hn).1 ha).relation_eq]
  · rfl

theorem Binding.operand_qualifiedIn (o : Operand) :
    operand s (o.qualifiedIn s) = operand s o := by
  cases o with
  | constant d => rfl
  | attr n => exact congrArg (Except.map Term.attr) (Scope.resolve_qualifiedIn hn n)

theorem Binding.comparison_qualifiedIn (c : Comparison) :
    comparison s (c.qualifiedIn s) = comparison s c := by
  unfold comparison
  rw [Comparison.qualifiedIn, operand_qualifiedIn hn, operand_qualifiedIn hn]

theorem Binding.outputs_qualifiedIn (names : List AttributeName) :
    outputs s (names.map (·.qualifiedIn s)) = outputs s names := by
  have hresolve : (fun n : AttributeName => s.resolve (n.qualifiedIn s)) = s.resolve := by
    funext n
    exact Scope.resolve_qualifiedIn hn n
  unfold outputs
  rw [List.isEmpty_map, List.mapM_map]
  simp only [Function.comp_def, hresolve]

theorem Binding.outputs_names : outputs s s.names = .ok (s.expandAll.map .attr) := by
  have hall := Scope.forall₂_resolve_names hn
  unfold outputs
  split
  · rfl
  · rw [mapM_eq_ok_of_forall₂ hall]
    rfl

end

namespace Binding

/-- Once its relations are bound, the rest of a query is bound in their scope. -/
theorem query_of_relations {db : Database} {q : Query} {s : Scope}
    (hrs : relations db.catalog [] q.relations = .ok s.relations) :
    query db q = (do
      let predicates ← q.comparisons.mapM (comparison s)
      let outputs ← MonadExcept.ofExcept (outputs s q.outputs)
      if q.distinct then throw (.notImplemented "DISTINCT")
      if q.orderBy.isSome then throw (.notImplemented "ORDER BY")
      let input ← JoinTree.build db s.relations predicates
      return .project outputs input) := by
  unfold query
  rw [hrs]
  rfl

/-- Qualifying all names leaves no trace in how a query is bound. -/
theorem query_qualifiedIn {db : Database} {q : Query} {s : Scope}
    (hn : (s.relations.map (·.name)).Nodup)
    (hrs : relations db.catalog [] q.relations = .ok s.relations) :
    query db (q.qualifiedIn s) = query db q := by
  have hrs' : relations db.catalog [] (q.qualifiedIn s).relations = .ok s.relations := hrs
  have hcomparisons : (q.qualifiedIn s).comparisons.mapM (comparison s)
      = q.comparisons.mapM (comparison s) := by
    have hcomparison : (fun c : Comparison => comparison s (c.qualifiedIn s)) = comparison s := by
      funext c
      exact comparison_qualifiedIn hn c
    rw [Query.qualifiedIn, List.mapM_map, Function.comp_def, hcomparison]
  have houtputs : outputs s (q.qualifiedIn s).outputs = outputs s q.outputs :=
    outputs_qualifiedIn hn q.outputs
  have horder : (q.qualifiedIn s).orderBy.isSome = q.orderBy.isSome := by simp [Query.qualifiedIn]
  rw [query_of_relations hrs', query_of_relations hrs, hcomparisons, houtputs, horder]
  rfl

/-- Nor does writing out the select list. -/
theorem query_listedIn {db : Database} {q : Query} {s : Scope}
    (hn : (s.relations.map (·.name)).Nodup)
    (hrs : relations db.catalog [] q.relations = .ok s.relations) :
    query db (q.listedIn s) = query db q := by
  have hrs' : relations db.catalog [] (q.listedIn s).relations = .ok s.relations := hrs
  have houtputs : outputs s (q.listedIn s).outputs = outputs s q.outputs := by
    unfold Query.listedIn
    by_cases hempty : q.outputs = []
    · rw [if_pos hempty, hempty]
      exact outputs_names hn
    · rw [if_neg hempty]
  rw [query_of_relations hrs', query_of_relations hrs, houtputs]
  rfl

end Binding

/-- `resolve` gives what the scope `Offers` under a name, and its failures tell whether that is in
several relations or in none. So `Binding.query` is the same for a query with all names qualified
(`qualifiedIn`) and with an empty select list written out (`listedIn`). -/
theorem Scope.resolves (s : Scope) (hn : (s.relations.map (·.name)).Nodup) :
    (∀ name, (∀ a, s.resolve ⟨none, name⟩ = .ok a
            ↔ s.Offers ⟨none, name⟩ a ∧ ∀ b, s.Offers ⟨none, name⟩ b → b.relation = a.relation)
        ∧ ((∃ e, s.resolve ⟨none, name⟩ = .error e ∧ e.kind = .ambiguousAttribute)
          ↔ ∃ a b, s.Offers ⟨none, name⟩ a ∧ s.Offers ⟨none, name⟩ b ∧ a.relation ≠ b.relation)
        ∧ ((∃ e, s.resolve ⟨none, name⟩ = .error e ∧ e.kind = .unknownAttribute)
          ↔ ∀ a, ¬ s.Offers ⟨none, name⟩ a))
      ∧ (∀ q name, (∀ a, s.resolve ⟨some q, name⟩ = .ok a ↔ s.Offers ⟨some q, name⟩ a)
        ∧ ((∃ e, s.resolve ⟨some q, name⟩ = .error e ∧ e.kind = .unresolvedRelation)
          ↔ ∀ r ∈ s.relations, r.name ≠ q)
        ∧ ((∃ e, s.resolve ⟨some q, name⟩ = .error e ∧ e.kind = .unknownAttribute)
          ↔ (∃ r ∈ s.relations, r.name = q) ∧ ∀ a, ¬ s.Offers ⟨some q, name⟩ a))
      ∧ (∀ name a, s.resolve ⟨none, name⟩ = .ok a →
        s.resolve ⟨some a.relation.name, name⟩ = .ok a)
      ∧ (∀ a ∈ s.expandAll, ∃ name, a.relation.Has name a.position
        ∧ s.resolve ⟨some a.relation.name, name⟩ = .ok a)
      ∧ ∀ (db : Database) q, Binding.relations db.catalog [] q.relations = .ok s.relations →
        Binding.query db (q.qualifiedIn s) = Binding.query db q
          ∧ Binding.query db (q.listedIn s) = Binding.query db q := by
  refine ⟨?_, ?_, ?_, ?_, ?_⟩
  · intro name
    exact ⟨fun a => resolveAnywhere_eq_ok_iff hn, ambiguous_iff hn, unknown_iff⟩
  · intro q name
    exact ⟨fun a => resolveIn_eq_ok_iff hn, unresolved_iff, unknownIn_iff hn⟩
  · intro name a ha
    exact resolve_of_unqualified hn ha
  · intro a ha
    exact resolve_of_mem_expandAll hn ha
  · intro db q hrs
    exact ⟨Binding.query_qualifiedIn hn hrs, Binding.query_listedIn hn hrs⟩

/-- A relation of numbers and words for them. -/
def Schema.words (name : String) : Schema :=
  ⟨name, [⟨"n", .integer⟩, ⟨"word", .string⟩], none, by simp, by simp, by simp⟩

/-- The words for the numbers of a relation. -/
def wordsOfNumbers (output : AttributeName) : Query where
  relations := ["a", "b"]
  comparisons := [⟨.attr ⟨some "a", "n"⟩, .attr ⟨some "b", "n"⟩⟩]
  outputs := [output]
  distinct := false
  orderBy := none

/-- Beside a relation of numbers, a word can be meant without its relation and a number cannot. -/
theorem Scope.resolves_word :
    (Scope.mk [.numbers "a", .words "b"]).resolve ⟨none, "word"⟩ = .ok ⟨.words "b", 1⟩
      ∧ (∃ e, (Scope.mk [.numbers "a", .words "b"]).resolve ⟨none, "n"⟩ = .error e
        ∧ e.kind = .ambiguousAttribute)
      ∧ (∃ e, (Scope.mk [.numbers "a", .words "b"]).resolve ⟨some "a", "word"⟩ = .error e
        ∧ e.kind = .unknownAttribute)
      ∧ ∃ db : Database, Binding.relations db.catalog [] ["a", "b"]
          = .ok [.numbers "a", .words "b"]
        ∧ Binding.query db (wordsOfNumbers ⟨some "b", "word"⟩)
          = Binding.query db (wordsOfNumbers ⟨none, "word"⟩) := by
  obtain ⟨hplain, hfull, -, -, hbound⟩ :=
    Scope.resolves ⟨[.numbers "a", .words "b"]⟩ (by decide)
  have hword : ∀ a, (Scope.mk [.numbers "a", .words "b"]).Offers ⟨none, "word"⟩ a
      ↔ a = ⟨.words "b", 1⟩ := by
    have hcandidates : (Scope.mk [.numbers "a", .words "b"]).candidates "word"
        = [⟨.words "b", 1⟩] := by decide
    intro a
    rw [← Scope.mem_candidates_iff, hcandidates, List.mem_singleton]
  have hnumber : ∀ a, (Scope.mk [.numbers "a", .words "b"]).Offers ⟨none, "n"⟩ a
      ↔ a ∈ [⟨.numbers "a", 0⟩, ⟨.words "b", 0⟩] := by
    have hcandidates : (Scope.mk [.numbers "a", .words "b"]).candidates "n"
        = [⟨.numbers "a", 0⟩, ⟨.words "b", 0⟩] := by decide
    intro a
    rw [← Scope.mem_candidates_iff, hcandidates]
  have hrelations : Binding.relations ((Catalog.empty.insert (.numbers "a")).insert (.words "b")) []
      ["a", "b"] = .ok [.numbers "a", .words "b"] := by decide
  refine ⟨?_, ?_, ?_, ⟨_, default, {}⟩, hrelations, ?_⟩
  · refine ((hplain "word").1 _).2 ⟨(hword _).2 rfl, ?_⟩
    intro b hb
    rw [(hword b).1 hb]
  · refine (hplain "n").2.1.2 ⟨_, _, (hnumber ⟨.numbers "a", 0⟩).2 ?_,
      (hnumber ⟨.words "b", 0⟩).2 ?_, by decide⟩
    · exact List.mem_cons_self
    · exact List.mem_cons_of_mem _ List.mem_cons_self
  · refine (hfull "a" "word").2.2.2 ⟨⟨.numbers "a", List.mem_cons_self, rfl⟩, ?_⟩
    intro a ha
    have hrelation := ha.relation_eq
    rw [(hword a).1 ha.unqualified] at hrelation
    exact absurd hrelation (by decide)
  · exact (hbound _ (wordsOfNumbers ⟨none, "word"⟩) hrelations).1

end RelQuery
