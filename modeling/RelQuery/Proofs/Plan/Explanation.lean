/-
  Explanations: the table that shows a plan.

  A plan is shown as a text, which an explanation takes apart again at its line feeds. The rows are
  those of the plan's nodes, as long as no name and no string in it ends a line. There is a text as
  long as every attribute in it is one of its relation's, which the plans of queries see to
  (`Plan.isSome_text?`, `Binding.inRange_of_planOf`).

  Main statement: `Plan.explained`.
-/
import RelQuery.Proofs.Query.Select
import RelQuery.Proofs.Statement.Alike

namespace RelQuery

/-! ## Lines of texts -/

namespace Blank

/-- No character of the text ends a line. -/
def OneLine (text : String) : Prop := ∀ c ∈ text.toList, c ≠ '\n' ∧ c ≠ '\r'

-- Not found from the quantifier, as that may be decided by trying all characters.
instance : DecidablePred OneLine := fun text =>
  decidable_of_iff (text.toList.all fun c => c != '\n' && c != '\r') (by simp [OneLine])

@[simp]
theorem oneLine_append {s t : String} : OneLine (s ++ t) ↔ OneLine s ∧ OneLine t := by
  simp only [OneLine, String.toList_append, List.forall_mem_append]

theorem oneLine_intercalate {separator : String} {texts : List String}
    (hseparator : OneLine separator) (h : ∀ t ∈ texts, OneLine t) :
    OneLine (separator.intercalate texts) := by
  induction texts with
  | nil => simp [OneLine]
  | cons t texts ih =>
    obtain ⟨ht, htexts⟩ := List.forall_mem_cons.1 h
    by_cases hnil : texts = []
    · rw [hnil, String.intercalate_singleton]
      exact ht
    · rw [String.intercalate_cons_of_ne_nil hnil, oneLine_append, oneLine_append]
      exact ⟨⟨ht, hseparator⟩, ih htexts⟩

theorem oneLine_repr (n : Nat) : OneLine n.repr := by
  intro c hc
  rw [Nat.toList_repr] at hc
  have hdigit : c.isDigit = true := Nat.isDigit_of_mem_toDigits (by decide) (by decide) hc
  constructor <;> rintro rfl <;> cases hdigit

theorem oneLine_toString (v : Int) : OneLine (toString v) := by
  rw [Int.toString_eq_repr, Int.repr_eq_if]
  split
  · exact oneLine_repr _
  · rw [oneLine_append]
    exact ⟨by decide, oneLine_repr _⟩

/-- Without a line feed all is part of the line that was begun. -/
theorem go_append {line cs rest : List Char} (h : '\n' ∉ cs) :
    lines.go line (cs ++ rest) = lines.go (cs.reverse ++ line) rest := by
  induction cs generalizing line with
  | nil => rfl
  | cons c cs ih =>
    rw [List.mem_cons, not_or] at h
    rw [List.cons_append, lines.go, if_neg (Ne.symm h.1), ih h.2, List.reverse_cons,
      List.append_assoc, List.singleton_append]

/-- A line feed ends the line in front of it. -/
theorem lines_append {text : String} (h : OneLine text) (rest : List Char) :
    lines (text.toList ++ '\n' :: rest) = text.toList :: lines rest := by
  have hreturn : text.toList.reverse.head? ≠ some '\r' := by
    intro hhead
    exact (h _ (List.mem_reverse.1 (List.mem_of_head? hhead))).2 rfl
  rw [lines, go_append fun hfeed => (h _ hfeed).1 rfl, List.append_nil, lines.go, if_pos rfl,
    if_neg hreturn, List.reverse_reverse]

/-- Lines that were put together are taken apart again. The last one would be lost if there were
nothing in it. -/
theorem lines_intercalate {rows : List String} (h : ∀ row ∈ rows, OneLine row ∧ row ≠ "") :
    lines ("\n".intercalate rows).toList = rows.map String.toList := by
  induction rows with
  | nil => rfl
  | cons row rows ih =>
    obtain ⟨⟨hrow, hne⟩, hrows⟩ := List.forall_mem_cons.1 h
    by_cases hnil : rows = []
    · have hlast : row.toList.reverse.isEmpty = false := by simpa using hne
      have hgo : lines.go [] (row.toList ++ []) = lines.go (row.toList.reverse ++ []) [] :=
        go_append fun hfeed => (hrow _ hfeed).1 rfl
      rw [List.append_nil, List.append_nil] at hgo
      rw [hnil, String.intercalate_singleton, lines, hgo, lines.go, hlast]
      simp
    · rw [String.intercalate_cons_of_ne_nil hnil, String.toList_append, String.toList_append,
        List.append_assoc]
      exact (lines_append hrow _).trans (congrArg _ (ih hrows))

end Blank

open Blank (OneLine)

/-- The table of a text that was put together from lines. -/
theorem Execution.explanation_intercalate {rows : List String}
    (h : ∀ row ∈ rows, OneLine row ∧ row ≠ "") :
    explanation ("\n".intercalate rows) = .ofStrings "plan" rows := by
  have hrows : (rows.map String.toList).map String.ofList = rows := by simp
  rw [explanation, Blank.lines_intercalate h, hrows]

/-! ## Nodes -/

/-- The names and strings that a term shows. -/
def Term.names : Term → List String
  | constant (.int _) => []
  | constant (.string s) => [s]
  | attr a => a.relation.name :: (a.relation.attributes[a.position]?.map (·.name)).toList

def Predicate.terms (p : Predicate) : List Term := [p.left, p.right]

theorem Predicate.forall_mem_terms {p : Predicate} {P : Term → Prop} :
    (∀ t ∈ p.terms, P t) ↔ P p.left ∧ P p.right := by simp [terms]

namespace Plan

/-- The plan is made of scans, joins and projections. -/
inductive OfOperators : Plan → Prop
  | scan (r : Schema) (filter : List Predicate) : OfOperators (.scan r filter)
  | join {left right : Plan} (strategy : JoinStrategy) (on : Predicate) (hl : OfOperators left)
    (hr : OfOperators right) : OfOperators (.join strategy on left right)
  | project {input : Plan} (outputs : List Term) (h : OfOperators input) :
    OfOperators (.project outputs input)

/-- The nodes of a plan and how deep they are, a node before its inputs and the left input before
the right one. -/
def nodes (depth : Nat) : Plan → List (Nat × Plan)
  | join strategy on left right =>
    (depth, join strategy on left right) :: (left.nodes (depth + 1) ++ right.nodes (depth + 1))
  | project outputs input => (depth, project outputs input) :: input.nodes (depth + 1)
  | p => [(depth, p)]

/-- The operator at a plan's own node. -/
def operatorName : Plan → String
  | scan .. => "Scan"
  | join strategy .. => strategy.text
  | project .. => "Project"
  | create .. => "CreateTable"
  | drop .. => "DropTable"
  | showTables => "ShowTables"
  | insert .. => "Insert"
  | explain .. => "Explain"

/-- The relation that is scanned at a plan's own node. -/
def scanned? : Plan → Option String
  | scan r _ => some r.name
  | _ => none

/-- The terms that are shown for a plan's own node. -/
def shown : Plan → List Term
  | scan _ filter => filter.flatMap Predicate.terms
  | join _ on _ _ => on.terms
  | project outputs _ => outputs
  | _ => []

/-- The names and strings that are shown for a plan's own node. -/
def names (p : Plan) : List String := p.scanned?.toList ++ p.shown.flatMap Term.names

/-- Every attribute that is shown is one of its relation's. -/
def InRange (p : Plan) : Prop := ∀ node ∈ p.nodes 0, ∀ t ∈ node.2.shown, t.InRange

instance : DecidablePred InRange := fun p =>
  inferInstanceAs (Decidable (∀ node ∈ p.nodes 0, ∀ t ∈ node.2.shown, t.InRange))

end Plan

/-! ## Rows -/

namespace Explanation

/-- The number of spaces that a row starts with. -/
def indent (row : String) : Nat := (row.toList.takeWhile (· == ' ')).length

/-- What stands behind them. -/
def body (row : String) : List Char := row.toList.dropWhile (· == ' ')

/-- The row is that of a scan. -/
def isScan (row : String) : Bool := "Scan: ".toList.isPrefixOf (body row)

/-- The row has an indentation of four spaces for each level above the node, and names the node's
operator behind them. -/
def Shows (row : String) (node : Nat × Plan) : Prop :=
  indent row = 4 * node.1 ∧ ∃ rest, body row = (node.2.operatorName ++ ": " ++ rest).toList

/-- The row names the relation as the one that is scanned, and says at most which filter its tuples
have to pass. -/
def NamesScanned (row name : String) : Prop :=
  ∃ rest, body row = ("Scan: " ++ name ++ rest).toList
    ∧ (rest = "" ∨ ∃ conditions, rest = " filter: " ++ conditions)

end Explanation

/-- There is a row for each node of the plan, in this order, the rows of scans name the relations in
theirs, and together the rows are the plan's text. -/
structure Plan.ExplainedBy (p : Plan) (rows : List String) : Prop where
  nodes : List.Forall₂ Explanation.Shows rows (p.nodes 0)
  relations : List.Forall₂ Explanation.NamesScanned (rows.filter Explanation.isScan) p.relations
  text : p.text? = some ("\n".intercalate rows)

/-! ## Texts of nodes -/

theorem forall₂_of_mapM_eq_some {α β : Type} {f : α → Option β} {as : List α} {bs : List β}
    (h : as.mapM f = some bs) : List.Forall₂ (fun a b => f a = some b) as bs := by
  induction as generalizing bs with
  | nil =>
    cases h
    exact .nil
  | cons a as ih =>
    rw [List.mapM_cons] at h
    obtain ⟨b, hb, h⟩ := Option.bind_eq_some_iff.1 h
    obtain ⟨bs, hbs, h⟩ := Option.bind_eq_some_iff.1 h
    cases h
    exact .cons hb (ih hbs)

theorem isSome_mapM {α β : Type} {f : α → Option β} {as : List α} :
    (as.mapM f).isSome ↔ ∀ a ∈ as, (f a).isSome := by
  induction as with
  | nil => simp
  | cons a as ih =>
    rw [List.mapM_cons, List.forall_mem_cons, ← ih]
    cases f a <;> cases as.mapM f <;> simp

theorem Term.oneLine_text? {t : Term} {text : String} (ht : t.text? = some text)
    (h : ∀ s ∈ t.names, OneLine s) : OneLine text := by
  cases t with
  | constant d =>
    cases ht
    cases d with
    | int v => exact Blank.oneLine_toString v.toInt
    | string s =>
      have hs : OneLine s := h s List.mem_cons_self
      simpa [Datum.quoted, hs] using (by decide : OneLine "'")
  | attr a =>
    obtain ⟨named, hnamed, rfl⟩ := Option.map_eq_some_iff.1 ht
    obtain ⟨hrelation, hattribute⟩ := List.forall_mem_cons.1 h
    have hname : OneLine named.name := hattribute _ (by simp [hnamed])
    simpa [hrelation, hname] using (by decide : OneLine ".")

theorem Predicate.oneLine_text? {p : Predicate} {text : String} (hp : p.text? = some text)
    (h : ∀ t ∈ p.terms, ∀ s ∈ t.names, OneLine s) : OneLine text := by
  obtain ⟨left, hleft, hp⟩ := Option.bind_eq_some_iff.1 hp
  obtain ⟨right, hright, hp⟩ := Option.bind_eq_some_iff.1 hp
  cases hp
  obtain ⟨hl, hr⟩ := forall_mem_terms.1 h
  simpa [Term.oneLine_text? hleft hl, Term.oneLine_text? hright hr]
    using (by decide : OneLine " = ")

namespace Plan

open Explanation

variable {p : Plan} {line : String}

/-- A scan names its relation, and perhaps says which filter its tuples have to pass. -/
theorem headline?_scan {r : Schema} {filter : List Predicate}
    (h : (scan r filter).headline? = some line) :
    ∃ rest, line = "Scan: " ++ r.name ++ rest ∧ (filter = [] ∧ rest = ""
      ∨ ∃ conditions, filter.mapM Predicate.text? = some conditions
        ∧ rest = " filter: " ++ " AND ".intercalate conditions) := by
  cases filter with
  | nil =>
    cases h
    exact ⟨"", String.append_empty.symm, .inl ⟨rfl, rfl⟩⟩
  | cons p ps =>
    obtain ⟨conditions, hconditions, h⟩ := Option.bind_eq_some_iff.1 h
    cases h
    exact ⟨_, String.append_assoc, .inr ⟨conditions, hconditions, rfl⟩⟩

theorem headline?_join {strategy : JoinStrategy} {on : Predicate} {left right : Plan}
    (h : (join strategy on left right).headline? = some line) :
    ∃ condition, on.text? = some condition ∧ line = strategy.text ++ ": " ++ condition := by
  obtain ⟨condition, hcondition, h⟩ := Option.bind_eq_some_iff.1 h
  cases h
  exact ⟨condition, hcondition, rfl⟩

theorem headline?_project {outputs : List Term} {input : Plan}
    (h : (project outputs input).headline? = some line) :
    ∃ columns, outputs.mapM Term.text? = some columns
      ∧ line = "Project: " ++ ", ".intercalate columns := by
  obtain ⟨columns, hcolumns, h⟩ := Option.bind_eq_some_iff.1 h
  cases h
  exact ⟨columns, hcolumns, rfl⟩

/-- What is said of a node starts with the name of its operator. -/
theorem headline?_eq (hp : p.OfOperators) (h : p.headline? = some line) :
    ∃ rest, line = p.operatorName ++ ": " ++ rest := by
  cases hp with
  | scan r filter =>
    obtain ⟨rest, rfl, -⟩ := headline?_scan h
    exact ⟨r.name ++ rest, String.append_assoc⟩
  | join =>
    obtain ⟨condition, -, rfl⟩ := headline?_join h
    exact ⟨condition, rfl⟩
  | project =>
    obtain ⟨columns, -, rfl⟩ := headline?_project h
    exact ⟨", ".intercalate columns, rfl⟩

/-- Something is said of a node as long as there is a text for every attribute in it. -/
theorem isSome_headline? : p.headline?.isSome ↔ ∀ t ∈ p.shown, t.InRange := by
  cases p with
  | scan r filter =>
    have hfilter : (filter.mapM Predicate.text?).isSome
        ↔ ∀ t ∈ (scan r filter).shown, t.InRange := by
      rw [isSome_mapM, shown, List.forall_mem_flatMap]
      exact forall₂_congr fun _ _ => Predicate.isSome_text?.trans Predicate.forall_mem_terms.symm
    rw [← hfilter]
    cases filter with
    | nil => exact ⟨fun _ => rfl, fun _ => rfl⟩
    | cons p ps => cases h : (p :: ps).mapM Predicate.text? <;> simp [headline?, h]
  | join strategy on left right =>
    rw [shown, Predicate.forall_mem_terms, ← Predicate.isSome_text?]
    cases h : on.text? <;> simp [headline?, h]
  | project outputs input =>
    have houtputs : (outputs.mapM Term.text?).isSome ↔ ∀ t ∈ outputs, t.InRange :=
      isSome_mapM.trans (forall₂_congr fun _ _ => Term.isSome_text?)
    rw [shown, ← houtputs]
    cases h : outputs.mapM Term.text? <;> simp [headline?, h]
  | create | drop | showTables | insert | explain => simp [headline?, shown]

theorem oneLine_headline? (hp : p.OfOperators) (h : p.headline? = some line)
    (hnames : ∀ s ∈ p.names, OneLine s) : OneLine line := by
  obtain ⟨hscanned, hshown⟩ := List.forall_mem_append.1 hnames
  have hterm : ∀ t ∈ p.shown, ∀ s ∈ t.names, OneLine s := fun t ht s hs =>
    hshown s (List.mem_flatMap.2 ⟨t, ht, hs⟩)
  cases hp with
  | scan r filter =>
    obtain ⟨rest, rfl, hrest⟩ := headline?_scan h
    have hname : OneLine r.name := hscanned r.name List.mem_cons_self
    have hrest : OneLine rest := by
      rcases hrest with ⟨-, rfl⟩ | ⟨conditions, hconditions, rfl⟩
      · decide
      · refine Blank.oneLine_append.2 ⟨by decide, Blank.oneLine_intercalate (by decide) ?_⟩
        intro condition hcondition
        have hall := forall₂_of_mapM_eq_some hconditions
        obtain ⟨q, hq, htext⟩ := exists_mem_of_forall₂ hall.flip hcondition
        exact Predicate.oneLine_text? htext fun t ht =>
          hterm t (List.mem_flatMap.2 ⟨q, hq, ht⟩)
    rw [Blank.oneLine_append, Blank.oneLine_append]
    exact ⟨⟨by decide, hname⟩, hrest⟩
  | join strategy on =>
    obtain ⟨condition, hcondition, rfl⟩ := headline?_join h
    have hstrategy : OneLine strategy.text := by cases strategy <;> decide
    rw [Blank.oneLine_append, Blank.oneLine_append]
    exact ⟨⟨hstrategy, by decide⟩, Predicate.oneLine_text? hcondition hterm⟩
  | project outputs =>
    obtain ⟨columns, hcolumns, rfl⟩ := headline?_project h
    refine Blank.oneLine_append.2 ⟨by decide, Blank.oneLine_intercalate (by decide) ?_⟩
    intro column hcolumn
    have hall := forall₂_of_mapM_eq_some hcolumns
    obtain ⟨t, ht, htext⟩ := exists_mem_of_forall₂ hall.flip hcolumn
    exact Term.oneLine_text? htext (hterm t ht)

/-! ## Lines of nodes -/

/-- The line of a node: what is said of it, four spaces further in for each level above it. -/
def lineOf? (node : Nat × Plan) : Option String :=
  node.2.headline?.map (spaces (indentWidth * node.1) ++ ·)

/-- The lines of a plan, if there is one for every node. -/
def lines? (p : Plan) (depth : Nat) : Option (List String) := (p.nodes depth).mapM lineOf?

theorem nodes_ne_nil (p : Plan) (depth : Nat) : p.nodes depth ≠ [] := by
  cases p <;> exact List.cons_ne_nil _ _

theorem lines?_ne_nil {p : Plan} {depth : Nat} {rows : List String}
    (h : p.lines? depth = some rows) : rows ≠ [] := by
  rintro rfl
  have hlength := (forall₂_of_mapM_eq_some h).length_eq
  exact p.nodes_ne_nil depth (List.eq_nil_of_length_eq_zero hlength)

/-- The line feeds that a text is written with are those between its lines. -/
theorem textFrom?_eq (p : Plan) (depth : Nat) :
    p.textFrom? (indentWidth * depth) = (p.lines? depth).map "\n".intercalate := by
  induction p generalizing depth with
  | join strategy on left right ihl ihr =>
    have hlines : (join strategy on left right).lines? depth = (do
        let own ← lineOf? (depth, join strategy on left right)
        let ls ← left.lines? (depth + 1)
        let rs ← right.lines? (depth + 1)
        return own :: (ls ++ rs)) := by
      simp [lines?, nodes, List.mapM_cons, List.mapM_append, Option.bind_assoc]
    rw [hlines, textFrom?, ← Nat.mul_succ, ihl, ihr, lineOf?]
    cases (join strategy on left right).headline? with
    | none => rfl
    | some own =>
      cases hl : left.lines? (depth + 1) with
      | none => rfl
      | some ls =>
        cases hr : right.lines? (depth + 1) with
        | none => rfl
        | some rs =>
          have hls := lines?_ne_nil hl
          have hrs := lines?_ne_nil hr
          simp [String.intercalate_cons_of_ne_nil, String.intercalate_append_of_ne_nil, hls, hrs,
            String.append_assoc]
  | project outputs input ih =>
    have hlines : (project outputs input).lines? depth = (do
        let own ← lineOf? (depth, project outputs input)
        let rows ← input.lines? (depth + 1)
        return own :: rows) := by
      simp [lines?, nodes, List.mapM_cons]
    rw [hlines, textFrom?, ← Nat.mul_succ, ih, lineOf?]
    cases (project outputs input).headline? with
    | none => rfl
    | some own =>
      cases hrows : input.lines? (depth + 1) with
      | none => rfl
      | some rows => simp [String.intercalate_cons_of_ne_nil (lines?_ne_nil hrows)]
  | scan | create | drop | showTables | insert | explain =>
    simp [textFrom?, lines?, nodes, lineOf?]

theorem text?_eq (p : Plan) : p.text? = (p.lines? 0).map "\n".intercalate := p.textFrom?_eq 0

/-- A plan has a text just when it is in range. -/
theorem isSome_text? : p.text?.isSome ↔ p.InRange := by
  rw [text?_eq, Option.isSome_map, lines?, isSome_mapM]
  refine forall₂_congr fun node _ => ?_
  rw [lineOf?, Option.isSome_map, isSome_headline?]

theorem OfOperators.of_mem_nodes (h : p.OfOperators) {depth : Nat} {node : Nat × Plan}
    (hnode : node ∈ p.nodes depth) : node.2.OfOperators := by
  induction h generalizing depth with
  | scan r filter =>
    rw [List.mem_singleton.1 hnode]
    exact .scan r filter
  | join strategy on hl hr ihl ihr =>
    rcases List.mem_cons.1 hnode with rfl | hnode
    · exact .join strategy on hl hr
    · exact (List.mem_append.1 hnode).elim ihl ihr
  | project outputs h ih =>
    rcases List.mem_cons.1 hnode with rfl | hnode
    · exact .project outputs h
    · exact ih hnode

theorem relations_eq_filterMap_nodes (h : p.OfOperators) (depth : Nat) :
    p.relations = (p.nodes depth).filterMap fun node => node.2.scanned? := by
  induction h generalizing depth with
  | scan r filter => rfl
  | join strategy on hl hr ihl ihr =>
    rw [relations, nodes, List.filterMap_cons_none rfl, List.filterMap_append, ← ihl, ← ihr]
  | project outputs h ih => rw [relations, nodes, List.filterMap_cons_none rfl, ← ih]

/-! ## Rows of nodes -/

theorem toList_spaces (n : Nat) : (spaces n).toList = List.replicate n ' ' := by
  rw [spaces, String.pushn_eq_repeat_push]
  induction n with
  | zero => rfl
  | succ n ih => rw [Nat.repeat, String.toList_push, ih, List.replicate_succ']

theorem head?_headline_ne (hp : p.OfOperators) (h : p.headline? = some line) :
    line.toList.head? ≠ some ' ' := by
  obtain ⟨rest, rfl⟩ := headline?_eq hp h
  cases hp with
  | scan => simp [operatorName]
  | join strategy => cases strategy <;> simp [operatorName, JoinStrategy.text]
  | project => simp [operatorName]

/-- Nothing but the indentation is in front of what is said of a node. -/
theorem indent_and_body (hp : p.OfOperators) (h : p.headline? = some line) (depth : Nat) :
    indent (spaces (indentWidth * depth) ++ line) = 4 * depth
      ∧ body (spaces (indentWidth * depth) ++ line) = line.toList := by
  have hspaces : ∀ c ∈ List.replicate (indentWidth * depth) ' ', (c == ' ') = true := by simp
  have hhead := head?_headline_ne hp h
  rw [indent, body, String.toList_append, toList_spaces, List.takeWhile_append_of_pos hspaces,
    List.dropWhile_append_of_pos hspaces]
  cases hline : line.toList with
  | nil => simp [indentWidth]
  | cons c cs =>
    rw [hline] at hhead
    have hc : (c == ' ') = false := by simpa using hhead
    simp [indentWidth, hc]

/-- What the row of a node shows. -/
theorem shows_of_lineOf? {node : Nat × Plan} (hp : node.2.OfOperators) {row : String}
    (h : lineOf? node = some row) : Shows row node ∧ isScan row = node.2.scanned?.isSome
      ∧ ∀ name, node.2.scanned? = some name → NamesScanned row name := by
  obtain ⟨depth, p⟩ := node
  obtain ⟨line, hline, rfl⟩ := Option.map_eq_some_iff.1 h
  obtain ⟨hindent, hbody⟩ := indent_and_body hp hline depth
  obtain ⟨rest, hrest⟩ := headline?_eq hp hline
  refine ⟨⟨hindent, rest, by rw [hbody, hrest]⟩, ?_, fun name hname => ?_⟩
  · rw [isScan, hbody, hrest]
    cases hp with
    | scan => simp [operatorName, scanned?]
    | join strategy =>
      cases strategy <;> simp [operatorName, JoinStrategy.text, scanned?, List.isPrefixOf]
    | project => simp [operatorName, scanned?, List.isPrefixOf]
  · cases hp with
    | scan r filter =>
      cases hname
      obtain ⟨rest, hscan, hfilter⟩ := headline?_scan hline
      refine ⟨rest, by rw [hbody, hscan], ?_⟩
      rcases hfilter with ⟨-, hnone⟩ | ⟨conditions, -, hsome⟩
      · exact .inl hnone
      · exact .inr ⟨_, hsome⟩
    | join | project => cases hname

/-- What is left of some rows stands in the order of what is found among the things that they are
made from. -/
theorem forall₂_filter {α β γ : Type} {S : α → β → Prop} {keep : β → Bool} {g : α → Option γ}
    {R : β → γ → Prop} {as : List α} {bs : List β} (h : List.Forall₂ S as bs)
    (hkeep : ∀ a ∈ as, ∀ b, S a b → keep b = (g a).isSome ∧ ∀ c, g a = some c → R b c) :
    List.Forall₂ R (bs.filter keep) (as.filterMap g) := by
  induction h with
  | nil => exact .nil
  | @cons a b as bs hab _ ih =>
    obtain ⟨hfirst, has⟩ := List.forall_mem_cons.1 hkeep
    obtain ⟨hkept, hrelated⟩ := hfirst b hab
    cases hg : g a with
    | none =>
      rw [hg] at hkept
      rw [List.filter_cons_of_neg (by simp [hkept]), List.filterMap_cons_none hg]
      exact ih has
    | some c =>
      rw [hg] at hkept
      rw [List.filter_cons_of_pos hkept, List.filterMap_cons_some hg]
      exact .cons (hrelated c hg) (ih has)

theorem explainedBy_lines (h : p.OfOperators) {rows : List String}
    (hrows : p.lines? 0 = some rows) :
    p.ExplainedBy rows := by
  have hall := forall₂_of_mapM_eq_some hrows
  have hnodes : ∀ node ∈ p.nodes 0, node.2.OfOperators := fun _ => h.of_mem_nodes
  refine ⟨?_, ?_, by rw [text?_eq, hrows]; rfl⟩
  · have hshown := (List.forall₂_and_left _ _).2 ⟨hnodes, hall⟩
    exact (hshown.imp fun node row ⟨hp, hrow⟩ => (shows_of_lineOf? hp hrow).1).flip
  · rw [relations_eq_filterMap_nodes h 0]
    exact forall₂_filter hall fun node hnode row hrow =>
      (shows_of_lineOf? (hnodes node hnode) hrow).2

/-- The lines of a plan in which no name and no string ends a line are lines. -/
theorem oneLine_of_mem_lines (h : p.OfOperators)
    (hnames : ∀ node ∈ p.nodes 0, ∀ s ∈ node.2.names, OneLine s) {rows : List String}
    (hrows : p.lines? 0 = some rows) : ∀ row ∈ rows, OneLine row ∧ row ≠ "" := by
  intro row hrow
  obtain ⟨node, hnode, hline⟩ :=
    exists_mem_of_forall₂ (forall₂_of_mapM_eq_some hrows).flip hrow
  have hp := h.of_mem_nodes hnode
  obtain ⟨line, hheadline, rfl⟩ := Option.map_eq_some_iff.1 hline
  refine ⟨Blank.oneLine_append.2 ⟨fun c hc => ?_, ?_⟩, fun hempty => ?_⟩
  · rw [toList_spaces] at hc
    rw [List.eq_of_mem_replicate hc]
    decide
  · exact oneLine_headline? hp hheadline (hnames node hnode)
  · obtain ⟨-, hbody⟩ := indent_and_body hp hheadline node.1
    obtain ⟨rest, hrest⟩ := headline?_eq hp hheadline
    rw [hempty, hrest] at hbody
    simp [body] at hbody

/-! ## Explained queries -/

theorem Joinable.ofOperators (h : p.Joinable) : p.OfOperators := by
  induction p with
  | scan r filter => exact .scan r filter
  | join strategy on left right ihl ihr => exact .join strategy on (ihl h.1) (ihr h.2.1)
  | project | create | drop | showTables | insert | explain => exact h.elim

/-- The terms that are shown for scans and joins are those of their tests. -/
theorem Joinable.exists_test (h : p.Joinable) {depth : Nat} {node : Nat × Plan}
    (hnode : node ∈ p.nodes depth) {t : Term} (ht : t ∈ node.2.shown) :
    ∃ q ∈ p.tests, t ∈ q.terms := by
  induction p generalizing depth with
  | scan r filter =>
    rw [List.mem_singleton.1 hnode] at ht
    exact List.mem_flatMap.1 ht
  | join strategy on left right ihl ihr =>
    rcases List.mem_cons.1 hnode with rfl | hnode
    · exact ⟨on, by simp [tests], ht⟩
    · rcases List.mem_append.1 hnode with hnode | hnode
      · obtain ⟨q, hq, htq⟩ := ihl h.1 hnode
        exact ⟨q, by simp [tests, hq], htq⟩
      · obtain ⟨q, hq, htq⟩ := ihr h.2.1 hnode
        exact ⟨q, by simp [tests, hq], htq⟩
  | project | create | drop | showTables | insert | explain => exact h.elim

end Plan

/-- The plan of a query is in range. -/
theorem Binding.inRange_of_planOf {db : Database} {q : Query} {p : Plan}
    (h : planOf db q = .ok p) : p.InRange := by
  obtain ⟨rs, ps, outs, input, hrs, hps, houts, -, -, hinput, rfl⟩ := planOf_eq_ok_iff.1 h
  obtain ⟨_, rfl, -, -, hn⟩ := relations_eq_ok hrs
  have hn := hn List.nodup_nil
  obtain ⟨hconstant, hbound, -⟩ := predicates_eq_ok hps
  obtain ⟨hjoinable, -⟩ := JoinTree.planOf_eq_ok hn hbound hconstant hinput
  intro node hnode t ht
  rcases List.mem_cons.1 hnode with rfl | hnode
  · exact ((outputs_eq_ok houts).1 t ht).inRange
  · obtain ⟨test, htest, hterm⟩ := hjoinable.exists_test hnode ht
    obtain ⟨hl, hr⟩ := JoinTree.boundIn_of_mem_tests hn hbound hinput htest
    rcases List.mem_pair.1 hterm with rfl | rfl
    · exact hl.inRange
    · exact hr.inRange

namespace Session

/-- A statement that explains a query answers with the table of its plan. -/
theorem Statement.run_explain {db : Database} {q : Query} {p : Plan} {statement : Statement}
    (hrequest : statement.request? = .ok (.explain q)) (hp : (Binding.query db q).Gives (.ok p))
    (j : Log.Journal) :
    statement.run.result db j = .ok ⟨Execution.explanation p.text, true⟩ := by
  have hplan : (Binding.request db (.explain q)).Gives (.ok (.explain p.text)) :=
    hp.bind (Reading.Gives.pure _)
  have hrun : ∀ l i, (Execution.run (.explain p.text)).result (db.withLayout l) i
      = .ok (Execution.explanation p.text) := fun _ _ => rfl
  exact Statement.run_of_plan hrequest hplan hrun j

/-- A query that is explained has a plan of operators. -/
theorem Attained.exists_plan_of_explain {fits : Request → Prop} {n : Nat} {db : Database}
    (h : Attained fits n db) {q : Query} {statement : Statement}
    (hrequest : statement.request? = .ok (.explain q)) {j : Log.Journal} {result : Result}
    (hok : statement.run.result db j = .ok result) :
    ∃ p, (Binding.query db q).Gives (.ok p) ∧ p.OfOperators ∧ p.InRange := by
  have hgives := query_gives_of_inStep h.inStep q
  cases hplan : Binding.planOf db q with
  | error e =>
    rw [hplan] at hgives
    have hfails : (Binding.request db (.explain q)).Gives (.error e) := hgives.bind_error
    rw [Statement.run_of_no_plan hrequest hfails] at hok
    cases hok
  | ok p =>
    rw [hplan] at hgives
    obtain ⟨outputs, input, rs, rfl, hinput, -⟩ := Binding.planOf_eq_ok hplan
    exact ⟨_, hgives, .project outputs hinput.ofOperators, Binding.inRange_of_planOf hplan⟩

end Session

/-- A plan `OfOperators` that is `InRange`, and in which no name and no string ends a line, is
`ExplainedBy` some rows: these are the table of its `text`, whatever the database, and the answer to
every query that has this plan. A query that can be explained, in a state that statements lead to,
has such a plan, but for its names and strings. -/
theorem Plan.explained :
    (∀ p : Plan, p.OfOperators → p.InRange →
      (∀ node ∈ p.nodes 0, ∀ s ∈ node.2.names, OneLine s) →
        ∃ rows, p.ExplainedBy rows
          ∧ (∀ db j, (Execution.run (.explain p.text)).result db j = .ok (.ofStrings "plan" rows))
          ∧ ∀ db q, (Binding.query db q).Gives (.ok p) →
            ∀ (statement : Session.Statement) j, statement.request? = .ok (.explain q) →
              statement.run.result db j = .ok ⟨.ofStrings "plan" rows, true⟩)
    ∧ ∀ fits n db, Session.Attained fits n db →
      ∀ (statement : Session.Statement) q j result, statement.request? = .ok (.explain q) →
        statement.run.result db j = .ok result →
          ∃ p, (Binding.query db q).Gives (.ok p) ∧ p.OfOperators ∧ p.InRange := by
  refine ⟨fun p hp hrange hnames => ?_, fun fits n db h statement q j result hrequest hok =>
    h.exists_plan_of_explain hrequest hok⟩
  obtain ⟨text, htext⟩ := Option.isSome_iff_exists.1 (isSome_text?.2 hrange)
  rw [text?_eq] at htext
  obtain ⟨rows, hrows, rfl⟩ := Option.map_eq_some_iff.1 htext
  have hexplained := explainedBy_lines hp hrows
  have hshown : p.text = "\n".intercalate rows := by
    rw [Plan.text, hexplained.text, Option.get!_some]
  have htable : Execution.explanation p.text = .ofStrings "plan" rows := by
    rw [hshown, Execution.explanation_intercalate (oneLine_of_mem_lines hp hnames hrows)]
  refine ⟨rows, hexplained, fun db j => ?_, fun db q hq statement j hrequest => ?_⟩
  · rw [← htable]
    rfl
  · rw [Session.Statement.run_explain hrequest hq, htable]

/-- The query for common numbers is explained by four rows. -/
theorem Plan.explained_common :
    (Session.Statement.request (.explain Session.common)).run.result Session.withSevens []
        = .ok ⟨.ofStrings "plan" ["Project: b.n", "    HashJoin: a.n = b.n", "        Scan: a",
          "        Scan: b"], true⟩
      ∧ (∃ rows, (Operator.commonNumbers .hash).ExplainedBy rows
        ∧ (Session.Statement.request (.explain Session.common)).run.result Session.withSevens []
          = .ok ⟨.ofStrings "plan" rows, true⟩)
      ∧ ∃ p, (Binding.query Session.withSevens Session.common).Gives (.ok p) ∧ p.OfOperators
        ∧ p.InRange := by
  have hrun : (Session.Statement.request (.explain Session.common)).run.result Session.withSevens []
      = .ok ⟨.ofStrings "plan" ["Project: b.n", "    HashJoin: a.n = b.n", "        Scan: a",
        "        Scan: b"], true⟩ := by decide +kernel
  have hrange : (Operator.commonNumbers .hash).InRange := by decide
  have hnames : ∀ node ∈ (Operator.commonNumbers .hash).nodes 0,
      ∀ s ∈ node.2.names, OneLine s := by decide
  have hoperators : (Operator.commonNumbers .hash).OfOperators :=
    .project _ (.join .hash _ (.scan _ []) (.scan _ []))
  obtain ⟨n, hattained⟩ := Session.reachable_withSevens.exists_attained
  have hgives := Session.query_gives_of_inStep hattained.inStep Session.common
  have hplan : Binding.planOf Session.withSevens Session.common
      = .ok (Operator.commonNumbers .hash) := by
    rw [← hgives .empty []]
    decide +kernel
  obtain ⟨hexplained, hexplains⟩ := Plan.explained
  obtain ⟨rows, hrows, -, hanswer⟩ := hexplained _ hoperators hrange hnames
  exact ⟨hrun, ⟨rows, hrows, hanswer _ _ (hplan ▸ hgives) (.request _) [] rfl⟩,
    hexplains _ _ _ hattained (.request _) _ _ _ rfl hrun⟩

/-- The sixth column of a relation that has one. -/
def Plan.pastTheEnd : Plan :=
  .project [.attr ⟨.numbers "a", 5⟩] (.scan (.numbers "a") [])

/-- Its names and strings are without line feeds, but as it has no text, no rows explain it. -/
theorem Plan.unexplained_pastTheEnd :
    pastTheEnd.OfOperators ∧ (∀ node ∈ pastTheEnd.nodes 0, ∀ s ∈ node.2.names, OneLine s)
      ∧ pastTheEnd.text? = none ∧ ∀ rows, ¬ pastTheEnd.ExplainedBy rows := by
  have hnone : pastTheEnd.text? = none := rfl
  refine ⟨.project _ (.scan _ []), by decide, hnone, fun rows h => ?_⟩
  rw [h.text] at hnone
  cases hnone

end RelQuery
