/-
  The growth of a join tree, edge by edge, without the plans that are built along.

  A tree grows from an edge: the first of the other edges that leads out of it is added, until
  none is left, none leads out, or one is found whose ends are both inside. What is kept is that
  the relations inside are linked and one more than the edges taken (`Grown`).

  Main statements: where the growth ends (`exists_stop`), and what each end says of the edges
  (`chain_outcome`): all are taken and span (`Grown.spanningTree`), one closes a cycle
  (`Grown.cycle`), or those left are out of reach (`Grown.apart`).
-/
import RelQuery.JoinTree
import RelQuery.Proofs.JoinTree.Links

namespace RelQuery.JoinTree

namespace Edge

/-- An edge as a link between the names of its relations. -/
def link (e : Edge) : String × String := (e.left.name, e.right.name)

/-- The edge is the other one, walked in either direction. -/
def Walks (e d : Edge) : Prop := e = d ∨ e = d.swapped

theorem Walks.joins {e d : Edge} (h : e.Walks d) : Joins d.link e.left.name e.right.name := by
  rcases h with rfl | rfl
  · exact .inl rfl
  · exact .inr rfl

/-- Both ends are joined. -/
def Inside (joined : List Schema) (e : Edge) : Prop :=
  isJoined joined e.left = true ∧ isJoined joined e.right = true

/-- No end is joined. -/
def Outside (joined : List Schema) (e : Edge) : Prop :=
  isJoined joined e.left = false ∧ isJoined joined e.right = false

end Edge

theorem isJoined_iff {joined : List Schema} {r : Schema} :
    isJoined joined r = true ↔ r.name ∈ joined.map (·.name) := by
  rw [isJoined, List.any_eq_true, List.mem_map]
  constructor
  · rintro ⟨q, hq, hname⟩
    exact ⟨q, hq, of_decide_eq_true hname⟩
  · rintro ⟨q, hq, hname⟩
    exact ⟨q, hq, decide_eq_true hname⟩

/-- A relation that is not joined yet keeps the names apart. -/
theorem nodup_names_append {joined : List Schema} {r : Schema}
    (hn : (joined.map (·.name)).Nodup) (hfresh : isJoined joined r = false) :
    ((joined ++ [r]).map (·.name)).Nodup := by
  have hnot : r.name ∉ joined.map (·.name) := fun hmem => by
    rw [isJoined_iff.2 hmem] at hfresh
    cases hfresh
  rw [List.map_append, List.nodup_append]
  refine ⟨hn, by simp, ?_⟩
  simp only [List.map_cons, List.map_nil, List.mem_singleton]
  rintro a ha b rfl rfl
  exact hnot ha

theorem isJoined_append (joined more : List Schema) (r : Schema) :
    isJoined (joined ++ more) r = (isJoined joined r || isJoined more r) := List.any_append

/-! ## Picking an edge -/

theorem pick_eq_none {joined : List Schema} {edges : List Edge} (h : pick joined edges = .ok none) :
    ∀ d ∈ edges, d.Outside joined := by
  induction edges with
  | nil => simp
  | cons e edges ih =>
    rw [pick] at h
    split at h
    · cases h
    · cases h
    · cases h
    · rename_i hl hr
      cases hp : pick joined edges with
      | error err => rw [hp] at h; cases h
      | ok found =>
        rw [hp] at h
        cases found with
        | none => exact List.forall_mem_cons.2 ⟨⟨hl, hr⟩, ih hp⟩
        | some f => cases h

/-- An edge closes a cycle when both its ends are joined. -/
theorem pick_eq_error {joined : List Schema} {edges : List Edge} {err : Error}
    (h : pick joined edges = .error err) :
    ∃ d ∈ edges, d.Inside joined ∧ err = .closesCycle d.predicate.text := by
  induction edges with
  | nil => cases h
  | cons e edges ih =>
    rw [pick] at h
    split at h
    · rename_i hl hr
      cases h
      exact ⟨e, List.mem_cons_self, ⟨hl, hr⟩, rfl⟩
    · cases h
    · cases h
    · cases hp : pick joined edges with
      | error err' =>
        rw [hp] at h
        cases h
        obtain ⟨d, hd, hin, herr⟩ := ih hp
        exact ⟨d, List.mem_cons_of_mem _ hd, hin, herr⟩
      | ok found => rw [hp] at h; cases found <;> cases h

/-- The edge picked is the first that is not outside of the joined relations, walked away from
them; those before and behind it are left. -/
theorem exists_split_of_pick {joined : List Schema} {edges rest : List Edge} {e : Edge}
    (h : pick joined edges = .ok (some (e, rest))) :
    ∃ before d after, edges = before ++ d :: after ∧ rest = before ++ after
      ∧ (∀ c ∈ before, c.Outside joined) ∧ e.Walks d ∧ isJoined joined e.left = true
      ∧ isJoined joined e.right = false := by
  induction edges generalizing rest with
  | nil => cases h
  | cons c edges ih =>
    rw [pick] at h
    split at h
    · cases h
    · rename_i hl hr
      cases h
      exact ⟨[], e, edges, rfl, rfl, List.forall_mem_nil _, .inl rfl, hl, hr⟩
    · rename_i hl hr
      cases h
      exact ⟨[], c, edges, rfl, rfl, List.forall_mem_nil _, .inr rfl, hr, hl⟩
    · rename_i hl hr
      cases hp : pick joined edges with
      | error err => rw [hp] at h; cases h
      | ok found =>
        rw [hp] at h
        cases found with
        | none => cases h
        | some f =>
          cases h
          obtain ⟨before, d, after, rfl, hrest, hbefore, hd⟩ := @ih f.2 hp
          exact ⟨c :: before, d, after, rfl, congrArg (c :: ·) hrest,
            List.forall_mem_cons.2 ⟨⟨hl, hr⟩, hbefore⟩, hd⟩

/-- The edge picked is one of those given. -/
theorem pick_eq_some {joined : List Schema} {edges rest : List Edge} {e : Edge}
    (h : pick joined edges = .ok (some (e, rest))) :
    ∃ d, edges.Perm (d :: rest) ∧ e.Walks d ∧ isJoined joined e.left = true
      ∧ isJoined joined e.right = false := by
  obtain ⟨before, d, after, rfl, rfl, -, hd⟩ := exists_split_of_pick h
  exact ⟨d, List.perm_middle, hd⟩

/-! ## Growing -/

/-- The edges along which a tree grows, in that order, each walked away from the relations that
are joined by then. -/
def chain (joined : List Schema) (edges : List Edge) : Except Error (List Edge) :=
  if edges.isEmpty then .ok []
  else match h : pick joined edges with
    | .error e => .error e
    | .ok none => .error (.unconnected (edges.map (·.predicate.text)))
    | .ok (some (e, rest)) =>
      have := length_of_pick h
      (chain (joined ++ [e.right]) rest).map (e :: ·)
termination_by edges.length

/-- The relations inside a tree are different ones, all linked by the edges taken, and one more
than those. -/
structure Grown (joined : List Schema) (used : List Edge) : Prop where
  distinct : (joined.map (·.name)).Nodup
  count : joined.length = used.length + 1
  linked : ∀ a ∈ joined.map (·.name), ∀ b ∈ joined.map (·.name), Linked (used.map Edge.link) a b
  inside : ∀ d ∈ used, d.Inside joined
  reached : ∀ r ∈ joined, ∃ d ∈ used, r.name = d.left.name ∨ r.name = d.right.name

theorem Grown.first {e : Edge} (hne : e.left.name ≠ e.right.name) :
    Grown [e.left, e.right] [e] where
  distinct := by simpa using hne
  count := rfl
  linked := by
    have h : Linked [e.link] e.left.name e.right.name := Linked.of_mem (List.mem_singleton_self _)
    simpa using ⟨⟨Linked.refl _ _, h⟩, h.symm, Linked.refl _ _⟩
  inside := by simp [Edge.Inside, isJoined_iff]
  reached := by simp

theorem Edge.Inside.mono {joined more : List Schema} {d : Edge} (h : d.Inside joined) :
    d.Inside (joined ++ more) := by
  simp only [Inside, isJoined_append, h.1, h.2, Bool.true_or, and_self]

/-- An edge that leads out of a tree makes it one relation larger. -/
theorem Grown.step {joined : List Schema} {used : List Edge} {e d : Edge} (h : Grown joined used)
    (hw : e.Walks d) (hl : isJoined joined e.left = true) (hr : isJoined joined e.right = false) :
    Grown (joined ++ [e.right]) (used ++ [d]) where
  distinct := nodup_names_append h.distinct hr
  count := by simp [h.count]
  linked := by
    have hold : ∀ {a b}, Linked (used.map Edge.link) a b →
        Linked ((used ++ [d]).map Edge.link) a b := fun hab =>
      hab.mono (by simp)
    have hnew : Linked ((used ++ [d]).map Edge.link) e.left.name e.right.name :=
      ⟨[d.link], .step hw.joins (.here _), by simp⟩
    have hleft := isJoined_iff.1 hl
    rw [List.map_append, List.map_singleton]
    intro a ha b hb
    -- Each of the two is an old relation or the new one.
    rcases List.mem_append.1 ha with ha | ha <;> rcases List.mem_append.1 hb with hb | hb
    · exact hold (h.linked a ha b hb)
    · rw [List.mem_singleton.1 hb]
      exact (hold (h.linked a ha _ hleft)).trans hnew
    · rw [List.mem_singleton.1 ha]
      exact hnew.symm.trans (hold (h.linked _ hleft b hb))
    · rw [List.mem_singleton.1 ha, List.mem_singleton.1 hb]
      exact .refl _ _
  inside := by
    intro c hc
    rcases List.mem_append.1 hc with hc | hc
    · exact (h.inside c hc).mono
    · rw [List.mem_singleton.1 hc]
      have hleft : isJoined (joined ++ [e.right]) e.left = true := by simp [isJoined_append, hl]
      have hright : isJoined (joined ++ [e.right]) e.right = true := by simp [isJoined_iff]
      rcases hw with rfl | rfl
      · exact ⟨hleft, hright⟩
      · exact ⟨hright, hleft⟩
  reached := by
    intro r hr
    rcases List.mem_append.1 hr with hr | hr
    · obtain ⟨c, hc, hr⟩ := h.reached r hr
      exact ⟨c, List.mem_append_left _ hc, hr⟩
    · rw [List.mem_singleton.1 hr]
      refine ⟨d, List.mem_append_right _ (List.mem_singleton_self d), ?_⟩
      rcases hw with rfl | rfl
      · exact .inr rfl
      · exact .inl rfl

/-! ## Where the growth ends -/

/-- The growth took some edges and ended: none is left, or one left is inside, or all are
outside. -/
inductive Stops (joined : List Schema) (rest : List Edge) : Except Error (List Edge) → Prop
  | done {oriented : List Edge} (h : rest = []) : Stops joined rest (.ok oriented)
  | cycle {err : Error} {d : Edge} (hkind : err.kind = .cycle) (hd : d ∈ rest)
    (hin : d.Inside joined) : Stops joined rest (.error err)
  | apart {err : Error} (hkind : err.kind = .cartesianProduct) (hne : rest ≠ [])
    (hout : ∀ d ∈ rest, d.Outside joined) : Stops joined rest (.error err)

theorem Stops.map {joined : List Schema} {rest : List Edge} {r : Except Error (List Edge)}
    (h : Stops joined rest r) (f : List Edge → List Edge) : Stops joined rest (r.map f) := by
  cases h with
  | done h => exact .done h
  | cycle hkind hd hin => exact .cycle hkind hd hin
  | apart hkind hne hout => exact .apart hkind hne hout

/-- The edges taken and those left are those there were; all that was inside stays inside. -/
theorem exists_stop {joined : List Schema} {used : List Edge} (edges : List Edge)
    (h : Grown joined used) :
    ∃ joined' used' rest, Grown joined' used' ∧ joined ⊆ joined' ∧ used ⊆ used'
      ∧ (used' ++ rest).Perm (used ++ edges) ∧ Stops joined' rest (chain joined edges) := by
  fun_induction chain joined edges generalizing used with
  | case1 joined edges hempty =>
    obtain rfl := List.isEmpty_iff.1 hempty
    exact ⟨joined, used, [], h, List.Subset.refl _, List.Subset.refl _, .refl _, .done rfl⟩
  | case2 joined edges hne err hp =>
    obtain ⟨d, hd, hin, rfl⟩ := pick_eq_error hp
    exact ⟨joined, used, edges, h, List.Subset.refl _, List.Subset.refl _, .refl _,
      .cycle rfl hd hin⟩
  | case3 joined edges hne hp =>
    refine ⟨joined, used, edges, h, List.Subset.refl _, List.Subset.refl _, .refl _,
      .apart rfl ?_ (pick_eq_none hp)⟩
    rintro rfl
    exact hne rfl
  | case4 joined edges hne e rest hp _ ih =>
    obtain ⟨d, hperm, hw, hl, hr⟩ := pick_eq_some hp
    obtain ⟨joined', used', rest', hgrown, hj, hu, hperm', hstops⟩ := ih (h.step hw hl hr)
    refine ⟨joined', used', rest', hgrown, fun r hr => hj (List.mem_append_left _ hr),
      fun r hr => hu (List.mem_append_left _ hr), hperm'.trans ?_, hstops.map _⟩
    rw [List.append_assoc]
    exact (hperm.symm).append_left used

/-- The edges of a whole tree, each walked as it was taken, are the edges there were. -/
theorem chain_eq_ok {joined : List Schema} {edges oriented : List Edge}
    (h : chain joined edges = .ok oriented) :
    ∃ taken, taken.Perm edges ∧ List.Forall₂ Edge.Walks oriented taken := by
  fun_induction chain joined edges generalizing oriented with
  | case1 joined edges hempty =>
    cases h
    rw [List.isEmpty_iff.1 hempty]
    exact ⟨[], .refl _, .nil⟩
  | case2 | case3 => cases h
  | case4 joined edges hne e rest hp _ ih =>
    cases hc : chain (joined ++ [e.right]) rest with
    | error err => rw [hc] at h; cases h
    | ok oriented' =>
      rw [hc] at h
      cases h
      obtain ⟨d, hperm, hw, -, -⟩ := pick_eq_some hp
      obtain ⟨taken, htaken, hwalks⟩ := ih hc
      exact ⟨d :: taken, (htaken.cons d).trans hperm.symm, .cons hw hwalks⟩

/-! ## Trees and cycles -/

section

variable {joined : List Schema} {used rest edges : List Edge} {things : List String}

theorem Edge.Inside.names {d : Edge} (h : d.Inside joined) :
    d.link.1 ∈ joined.map (·.name) ∧ d.link.2 ∈ joined.map (·.name) :=
  ⟨isJoined_iff.1 h.1, isJoined_iff.1 h.2⟩

theorem Edge.Outside.names {d : Edge} (h : d.Outside joined) :
    d.link.1 ∉ joined.map (·.name) ∧ d.link.2 ∉ joined.map (·.name) := by
  simp only [Outside, ← Bool.not_eq_true, isJoined_iff] at h
  exact h

/-- What can be reached from inside a tree that the other edges stay outside of. -/
theorem Grown.linked_of_apart (hg : Grown joined used) (hout : ∀ d ∈ rest, d.Outside joined)
    {links : List (String × String)} (hsub : links ⊆ used.map Edge.link) {a b : String}
    (ha : a ∈ joined.map (·.name)) (h : Linked (links ++ rest.map Edge.link) a b) :
    Linked links a b ∧ b ∈ joined.map (·.name) := by
  refine Linked.of_append_of_closed (· ∈ joined.map (·.name)) h ha (fun l hl => ?_) ?_
  · obtain ⟨d, hd, rfl⟩ := List.mem_map.1 (hsub hl)
    exact (hg.inside d hd).names
  · intro l hl
    obtain ⟨d, hd, rfl⟩ := List.mem_map.1 hl
    exact (hout d hd).names

/-- The edges of a tree that took as many as a tree over some things has span them. -/
theorem Grown.spanningTree (hg : Grown joined used) (hperm : used.Perm edges)
    (hends : ∀ d ∈ edges, d.left.name ∈ things ∧ d.right.name ∈ things)
    (hlen : edges.length + 1 = things.length) : SpanningTree things (edges.map Edge.link) := by
  have hsub : joined.map (·.name) ⊆ things := by
    intro a ha
    obtain ⟨r, hr, rfl⟩ := List.mem_map.1 ha
    obtain ⟨d, hd, h | h⟩ := hg.reached r hr
    · exact h ▸ (hends d (hperm.subset hd)).1
    · exact h ▸ (hends d (hperm.subset hd)).2
  have hall : (joined.map (·.name)).Perm things := by
    refine (List.subperm_of_subset hg.distinct hsub).perm_of_length_le (Nat.le_of_eq ?_)
    rw [List.length_map, hg.count, hperm.length_eq, hlen]
  refine ⟨by simpa using hlen, fun a ha b hb => ?_⟩
  exact (hg.linked a (hall.symm.subset ha) b (hall.symm.subset hb)).mono (hperm.map _).subset

/-- An edge left whose ends are inside closes a cycle, and the edges span nothing: without it
they link as much. -/
theorem Grown.cycle (hg : Grown joined used) (hn : things.Nodup)
    (hperm : (used ++ rest).Perm edges) {d : Edge} (hd : d ∈ rest) (hin : d.Inside joined)
    {a : String} (ha : a ∈ joined.map (·.name)) :
    HasCycleFrom (edges.map Edge.link) a ∧ ¬ SpanningTree things (edges.map Edge.link) := by
  obtain ⟨pre, post, rfl⟩ := List.append_of_mem hd
  have hlinks : (edges.map Edge.link).Perm (d.link :: (used ++ (pre ++ post)).map Edge.link) := by
    refine (hperm.symm.map _).trans ?_
    rw [← List.map_cons (f := Edge.link), ← List.append_assoc, ← List.append_assoc]
    exact List.perm_middle.map _
  have hlinked : ∀ b ∈ joined.map (·.name), ∀ c ∈ joined.map (·.name),
      Linked ((used ++ (pre ++ post)).map Edge.link) b c := fun b hb c hc =>
    (hg.linked b hb c hc).mono (by simp)
  have hd := hlinked _ hin.names.1 _ hin.names.2
  refine ⟨?_, fun htree => ?_⟩
  · refine hasCycleFrom_iff.2 ⟨d.link, hlinks.symm.subset List.mem_cons_self, ?_, ?_⟩
    · exact (hlinked a ha _ hin.names.1).mono
        (fun l hl => hlinks.symm.subset (List.mem_cons_of_mem _ hl))
    · have herase := hlinks.erase d.link
      rw [List.erase_cons_head] at herase
      exact hd.mono herase.symm.subset
  · have hle := length_le_of_linked hn fun b hb c hc =>
      ((htree.2 b hb c hc).mono hlinks.subset).of_cons_of_linked hd
    have hlen := htree.1
    rw [hlinks.length_eq, List.length_cons] at hlen
    omega

/-- Where no edge left touches the tree there is no cycle in reach, and the edges span nothing. -/
theorem Grown.apart (hg : Grown joined used) (hperm : (used ++ rest).Perm edges)
    (hne : rest ≠ []) (hout : ∀ d ∈ rest, d.Outside joined)
    (hends : ∀ d ∈ edges, d.left.name ∈ things ∧ d.right.name ∈ things) {a : String}
    (ha : a ∈ joined.map (·.name)) (hthing : a ∈ things) :
    ¬ HasCycleFrom (edges.map Edge.link) a ∧ ¬ SpanningTree things (edges.map Edge.link) := by
  have hlinks : (edges.map Edge.link).Perm (used.map Edge.link ++ rest.map Edge.link) := by
    rw [← List.map_append]
    exact hperm.symm.map _
  constructor
  · intro hcycle
    obtain ⟨l, hl, hal, hback⟩ := hasCycleFrom_iff.1 hcycle
    have hin := (hg.linked_of_apart hout (List.Subset.refl _) ha (hal.mono hlinks.subset)).2
    have hused : l ∈ used.map Edge.link := by
      refine (List.mem_append.1 (hlinks.subset hl)).resolve_right fun hrest => ?_
      obtain ⟨d, hd, rfl⟩ := List.mem_map.1 hrest
      exact (hout d hd).names.1 hin
    -- The link is one of the tree, which would hold together without it.
    have herase := hlinks.erase l
    rw [List.erase_append_left _ hused] at herase
    have hback := (hg.linked_of_apart hout List.erase_subset hin (hback.mono herase.subset)).1
    have hle := length_le_of_linked hg.distinct fun b hb c hc =>
      ((hg.linked b hb c hc).mono (List.perm_cons_erase hused).subset).of_cons_of_linked hback
    have hpos := List.length_pos_of_mem hused
    rw [List.length_erase_of_mem hused, List.length_map, List.length_map, hg.count] at hle
    rw [List.length_map] at hpos
    omega
  · intro htree
    obtain ⟨d, hd⟩ := List.exists_mem_of_ne_nil rest hne
    have hmem := (hends d (hperm.subset (List.mem_append_right _ hd))).1
    have hlinked := (htree.2 a hthing _ hmem).mono hlinks.subset
    exact (hout d hd).names.1 (hg.linked_of_apart hout (List.Subset.refl _) ha hlinked).2

/-- From an edge the growth takes all edges when there are as many as in a tree and they span;
else it fails at a cycle, or for want of an edge when no cycle is in reach. -/
theorem chain_outcome {e : Edge} (hn : things.Nodup)
    (hends : ∀ d ∈ e :: edges, d.left.name ∈ things ∧ d.right.name ∈ things)
    (hne : e.left.name ≠ e.right.name) (hlen : (e :: edges).length + 1 = things.length) :
    (∃ es, chain [e.left, e.right] edges = .ok es
        ∧ SpanningTree things ((e :: edges).map Edge.link))
      ∨ ∃ err, chain [e.left, e.right] edges = .error err
        ∧ ¬ SpanningTree things ((e :: edges).map Edge.link)
        ∧ (HasCycleFrom ((e :: edges).map Edge.link) e.left.name ∧ err.kind = .cycle
          ∨ ¬ HasCycleFrom ((e :: edges).map Edge.link) e.left.name
            ∧ err.kind = .cartesianProduct) := by
  obtain ⟨joined, used, rest, hg, hj, -, hperm, hstops⟩ := exists_stop edges (Grown.first hne)
  rw [List.singleton_append] at hperm
  have hfirst : e.left.name ∈ joined.map (·.name) := List.mem_map_of_mem (hj List.mem_cons_self)
  generalize chain [e.left, e.right] edges = r at hstops
  cases hstops with
  | @done es hrest =>
    subst hrest
    rw [List.append_nil] at hperm
    exact .inl ⟨es, rfl, hg.spanningTree hperm hends hlen⟩
  | @cycle err d hkind hd hin =>
    obtain ⟨hcycle, htree⟩ := hg.cycle hn hperm hd hin hfirst
    exact .inr ⟨err, rfl, htree, .inl ⟨hcycle, hkind⟩⟩
  | @apart err hkind hrest hout =>
    obtain ⟨hcycle, htree⟩ := hg.apart hperm hrest hout hends hfirst
      (hends e List.mem_cons_self).1
    exact .inr ⟨err, rfl, htree, .inr ⟨hcycle, hkind⟩⟩

end

end RelQuery.JoinTree
