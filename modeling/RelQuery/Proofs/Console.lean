/-
  A conversation is a fold of the session over the lines of its input.

  What the lines are, what is carried out on them and what is shown for them is said here without
  the console: lines are cut at line feeds, a line's statement is what is left of it without the
  white space around it, and each statement is run on what those before it left. The console
  reads lines up to the first answer after which nothing may go on, or up to the first line that
  no text is written as; what it shows and leaves is what those lines give. A screen that gets full
  ends it earlier: after a prompt that does not fit nothing is read, but a line behind a prompt
  that fits is carried out whether or not there is room for its answer.

  Main statements: `run_eq_fold`, on a screen that holds any number of bytes, and `run_within`,
  which compares it with a screen for `n` bytes.
-/
import RelQuery.Console
import RelQuery.Proofs.Reading
import RelQuery.Proofs.Text.Utf8

namespace RelQuery.Console

open Log (Journal)

/-! ## Lines -/

/-- The lines of an input: each has a line feed at its end and nowhere else, but the last one
may be without. -/
inductive Cut : Bytes → List Bytes → Prop
  | empty : Cut [] []
  | unterminated {body : Bytes} (hne : body ≠ []) (h : 10 ∉ body) : Cut body [body]
  | line {body rest : Bytes} {lines : List Bytes} (h : 10 ∉ body) (hrest : Cut rest lines) :
    Cut (body ++ 10 :: rest) ((body ++ [10]) :: lines)

theorem cut_go {line : Bytes} (input : Bytes) (h : 10 ∉ line) :
    Cut (line.reverse ++ input) (linesOf.go line input) := by
  induction input generalizing line with
  | nil =>
    rw [linesOf.go, List.append_nil]
    split
    · rename_i hempty
      rw [List.isEmpty_iff.1 hempty]
      exact .empty
    · rename_i hne
      exact .unterminated (by simpa using hne) (by simpa using h)
  | cons b bs ih =>
    rw [linesOf.go]
    split
    · rename_i hb
      subst hb
      rw [List.reverse_cons]
      exact .line (by simpa using h) (ih List.not_mem_nil)
    · rename_i hb
      have hline : 10 ∉ b :: line := List.not_mem_cons_of_ne_of_not_mem (Ne.symm hb) h
      have hcut := ih hline
      rwa [List.reverse_cons, List.append_assoc] at hcut

theorem cut_linesOf (input : Bytes) : Cut input (linesOf input) := cut_go input List.not_mem_nil

/-! ## Statements on lines -/

/-- The statement on a line, which has none if it holds nothing but white space. -/
def statementOn? (line : String) : Option String :=
  let statement := Blank.trim line.toList
  if statement.isEmpty then none else some (String.ofList statement)

/-- What a statement leaves behind, in the database and in the journal. -/
def carriedOut (s : Database × Journal) (text : String) : Database × Journal :=
  ((Session.execute text).after s.1 s.2, (Session.execute text).journal s.1 s.2)

/-- What the lines leave behind. -/
def leaves (lines : List String) (s : Database × Journal) : Database × Journal :=
  (lines.filterMap statementOn?).foldl carriedOut s

/-- The answer to a line, which has none without a statement. -/
def answerTo (line : String) (s : Database × Journal) : Option (Except Error Session.Result) :=
  (statementOn? line).map fun text => (Session.execute text).result s.1 s.2

/-- The answers to lines, each on what those before it left. -/
def answersTo : List String → Database × Journal → List (Option (Except Error Session.Result))
  | [], _ => []
  | line :: lines, s => answerTo line s :: answersTo lines (leaves [line] s)

/-- An answer as it is shown. -/
def shownAs : Option (Except Error Session.Result) → String
  | none => ""
  | some (.ok r) => resultText r
  | some (.error e) => errorText e

/-- What is shown for answers: each behind a prompt. -/
def transcript (answers : List (Option (Except Error Session.Result))) : String :=
  String.join (answers.map fun a => prompt ++ shownAs a)

/-- The error of an answer after which nothing may go on. -/
def fatal? : Option (Except Error Session.Result) → Option Error
  | some (.error e) => if e.isFatal then some e else none
  | _ => none

/-- How a conversation ends after some answers, with what is left of the lines, the result and
what is shown last. -/
inductive Ends (answers : List (Option (Except Error Session.Result))) :
    List Bytes → Except Error Unit → String → Prop
  /-- The input is at its end. -/
  | atEnd (h : ∀ a ∈ answers, fatal? a = none) : Ends answers [] (.ok ()) prompt
  /-- No text is written as the next line. -/
  | undecodable {line : Bytes} {unread : List Bytes} {e : Error}
    (h : ∀ a ∈ answers, fatal? a = none) (hline : ∀ text, Utf8.encode text ≠ line)
    (hkind : e.kind = .runtime) (hfatal : e.isFatal = false) :
    Ends answers (line :: unread) (.error e) prompt
  /-- The last answer is an error after which nothing may go on. -/
  | failed {earlier : List (Option (Except Error Session.Result))} {unread : List Bytes} {e : Error}
    (h : ∀ a ∈ earlier, fatal? a = none) (hanswers : answers = earlier ++ [some (.error e)])
    (he : e.isFatal = true) : Ends answers unread (.error e) ""

theorem leaves_cons (line : String) (lines : List String) (s : Database × Journal) :
    leaves (line :: lines) s = leaves lines (leaves [line] s) := by
  unfold leaves
  rw [List.filterMap_cons, List.filterMap_cons]
  cases statementOn? line <;> rfl

theorem transcript_nil : transcript [] = "" := rfl

theorem transcript_cons (a : Option (Except Error Session.Result))
    (answers : List (Option (Except Error Session.Result))) :
    transcript (a :: answers) = prompt ++ shownAs a ++ transcript answers := by
  rw [transcript, List.map_cons, String.join_cons]
  rfl

theorem fatal?_eq_some {a : Option (Except Error Session.Result)} {e : Error}
    (h : fatal? a = some e) : a = some (.error e) ∧ e.isFatal = true := by
  unfold fatal? at h
  split at h
  · split at h
    · cases h
      exact ⟨rfl, ‹_›⟩
    · cases h
  · cases h

theorem Ends.cons {a : Option (Except Error Session.Result)}
    {answers : List (Option (Except Error Session.Result))} {unread : List Bytes}
    {result : Except Error Unit} {last : String} (ha : fatal? a = none)
    (h : Ends answers unread result last) : Ends (a :: answers) unread result last := by
  cases h with
  | atEnd h => exact .atEnd (List.forall_mem_cons.2 ⟨ha, h⟩)
  | undecodable h hline hkind hfatal =>
    exact .undecodable (List.forall_mem_cons.2 ⟨ha, h⟩) hline hkind hfatal
  | failed h hanswers he =>
    exact .failed (List.forall_mem_cons.2 ⟨ha, h⟩) (congrArg (a :: ·) hanswers) he

/-! ## Screens -/

/-- There is room for a text; without a number, for any. -/
def Fits (room : Option Nat) (text : String) : Prop :=
  ∀ n, room = some n → (Utf8.encode text).length ≤ n

/-- A screen of any size that shows a text. -/
def showing (text : String) : Screen := ⟨Utf8.encode text, none⟩

/-- A screen that was blank, after a text of which it shows what there was room for. -/
def showingIn (room : Option Nat) (text : String) : Screen :=
  match room with
  | none => showing text
  | some n => ⟨(Utf8.encode text).take n, some (n - (Utf8.encode text).length)⟩

section

variable {room : Option Nat} {shown text : String}

theorem fits_none (text : String) : Fits none text := fun _ h => nomatch h

theorem fits_some_iff {n : Nat} : Fits (some n) text ↔ (Utf8.encode text).length ≤ n :=
  ⟨fun h => h n rfl, fun h _ hm => Option.some.inj hm ▸ h⟩

theorem fits_empty (room : Option Nat) : Fits room "" := fun n _ => Nat.zero_le n

theorem Fits.left (h : Fits room (shown ++ text)) : Fits room shown := by
  intro n hn
  have hall := h n hn
  rw [Utf8.encode_append, List.length_append] at hall
  omega

theorem showingIn_empty (room : Option Nat) : showingIn room "" = .blank room := by
  cases room with
  | none => rfl
  | some n =>
    have hempty : Utf8.encode "" = [] := rfl
    rw [showingIn, hempty, List.take_nil]
    rfl

theorem print_of_fits (h : Fits room (shown ++ text)) :
    Screen.print text (showingIn room shown) = (showingIn room (shown ++ text), .ok ()) := by
  cases room with
  | none =>
    rw [showingIn, showingIn, showing, showing, Utf8.encode_append]
    rfl
  | some n =>
    have hall := fits_some_iff.1 h
    rw [Utf8.encode_append, List.length_append] at hall
    have hrest : (Utf8.encode text).length ≤ n - (Utf8.encode shown).length := by omega
    rw [showingIn, showingIn, Screen.print, Utf8.encode_append, List.take_append,
      List.length_append]
    simp only [if_pos hrest, Nat.sub_sub]

theorem print_of_full (h : Fits room shown) (hfull : ¬ Fits room (shown ++ text)) :
    Screen.print text (showingIn room shown)
      = (showingIn room (shown ++ text), .error .outputFull) := by
  cases room with
  | none => exact absurd (fits_none _) hfull
  | some n =>
    have hshown := fits_some_iff.1 h
    rw [fits_some_iff, Utf8.encode_append, List.length_append] at hfull
    have hrest : ¬ (Utf8.encode text).length ≤ n - (Utf8.encode shown).length := by omega
    rw [showingIn, showingIn, Screen.print, Utf8.encode_append, List.take_append,
      List.length_append]
    simp only [if_neg hrest, Nat.sub_sub]

/-- Nothing more is shown on a full screen. -/
theorem showingIn_of_full (hfull : ¬ Fits room shown) (text : String) :
    showingIn room (shown ++ text) = showingIn room shown := by
  cases room with
  | none => exact absurd (fits_none _) hfull
  | some n =>
    rw [fits_some_iff] at hfull
    have hshown : n - (Utf8.encode shown).length = 0 := by omega
    rw [showingIn, showingIn, Utf8.encode_append, List.take_append, List.length_append,
      ← Nat.sub_sub, hshown, List.take_zero, List.append_nil, Nat.zero_sub]

end

/-! ## The console -/

section

variable {α β : Type} {x : Dialogue α} {f : α → Dialogue β} {screen screen' screen'' : Screen}
  {shown shown' shown'' : String} {s s' s'' : Database × Journal}

/-- What a dialogue gives on a screen, and what the screen shows and is left behind then. -/
def Runs (x : Dialogue α) (screen : Screen) (s : Database × Journal) (result : Except Error α)
    (screen' : Screen) (s' : Database × Journal) : Prop :=
  ((x.run.run screen).run s.1).run s.2 = (((result, screen'), s'.1), s'.2)

/-- What a dialogue gives, and what it shows and leaves then. -/
def Goes (x : Dialogue α) (shown : String) (s : Database × Journal) (result : Except Error α)
    (shown' : String) (s' : Database × Journal) : Prop :=
  ((x.run.run (showing shown)).run s.1).run s.2 = (((result, showing shown'), s'.1), s'.2)

theorem run_bind (x : Dialogue α) (f : α → Dialogue β) (screen : Screen)
    (s : Database × Journal) : (((x >>= f).run.run screen).run s.1).run s.2
      = (fun y => ((((ExceptT.bindCont f y.1.1.1).run y.1.1.2).run y.1.2).run y.2))
        (((x.run.run screen).run s.1).run s.2) := rfl

theorem Runs.bind {a : α} {result : Except Error β} (hx : Runs x screen s (.ok a) screen' s')
    (hf : Runs (f a) screen' s' result screen'' s'') :
    Runs (x >>= f) screen s result screen'' s'' := by
  rw [Runs, run_bind, hx]
  exact hf

theorem Runs.bind_error {e : Error} (hx : Runs x screen s (.error e) screen' s') :
    Runs (x >>= f) screen s (.error e) screen' s' := by
  rw [Runs, run_bind, hx]
  rfl

theorem Goes.bind {a : α} {result : Except Error β} (hx : Goes x shown s (.ok a) shown' s')
    (hf : Goes (f a) shown' s' result shown'' s'') :
    Goes (x >>= f) shown s result shown'' s'' :=
  Runs.bind hx hf

end

section

variable {room : Option Nat} {shown : String} (s : Database × Journal)

theorem display_runs {text : String} {screen screen' : Screen} {result : Except Error Unit}
    (h : Screen.print text screen = (screen', result)) :
    Runs (display text) screen s result screen' s := by
  have hdisplay : (((display text).run.run screen).run s.1).run s.2
      = ((((MonadExcept.ofExcept (Screen.print text screen).2 : Dialogue Unit).run.run
        (Screen.print text screen).1).run s.1).run s.2) := rfl
  rw [Runs, hdisplay, h]
  cases result <;> rfl

theorem display_goes (shown : String) (s : Database × Journal) (text : String) :
    Goes (display text) shown s (.ok ()) (shown ++ text) s :=
  display_runs s (print_of_fits (fits_none (shown ++ text)))

theorem throw_runs (e : Error) (screen : Screen) :
    Runs (throw e : Dialogue Unit) screen s (.error e) screen s := rfl

theorem of_result (result : Except Error Session.Result) :
    Reply.of result = ⟨shownAs (some result), fatal? (some result)⟩ := by
  cases result <;> rfl

theorem reply_runs (line : String) (screen : Screen) :
    Runs (ExceptT.lift (StateT.lift (reply line))) screen s
      (.ok ⟨shownAs (answerTo line s), fatal? (answerTo line s)⟩) screen (leaves [line] s) := by
  unfold Runs reply answerTo leaves
  rw [List.filterMap_cons, statementOn?]
  dsimp only
  split
  · rfl
  · show (((Except.ok (Reply.of _), _), _), _) = _
    rw [of_result]
    rfl

/-- A line without room for a prompt is not read. -/
theorem answer_of_no_prompt (line : Bytes) (hshown : Fits room shown)
    (hfull : ¬ Fits room (shown ++ prompt)) :
    Runs (answer line) (showingIn room shown) s (.error .outputFull)
      (showingIn room (shown ++ prompt)) s :=
  (display_runs s (print_of_full hshown hfull)).bind_error

theorem answer_of_undecodable {line : Bytes} {e : Utf8.Fault} (h : Utf8.decode line = .error e)
    (hprompt : Fits room (shown ++ prompt)) :
    Runs (answer line) (showingIn room shown) s (.error .inputNotUtf8)
      (showingIn room (shown ++ prompt)) s := by
  unfold answer
  rw [h]
  exact (display_runs s (print_of_fits hprompt)).bind (throw_runs ..)

/-- A line is answered behind a prompt, and ends the conversation if the answer is fatal. -/
theorem answer_runs {line : Bytes} {text : String} (h : Utf8.decode line = .ok text)
    (hfits : Fits room (shown ++ prompt ++ shownAs (answerTo text s))) :
    Runs (answer line) (showingIn room shown) s
      (match fatal? (answerTo text s) with | some e => .error e | none => .ok ())
      (showingIn room (shown ++ prompt ++ shownAs (answerTo text s))) (leaves [text] s) := by
  unfold answer
  rw [h]
  refine (display_runs s (print_of_fits hfits.left)).bind ((reply_runs s text _).bind
    ((display_runs _ (print_of_fits hfits)).bind ?_))
  dsimp only
  cases fatal? (answerTo text s) <;> rfl

/-- A line without room for its answer is carried out all the same. -/
theorem answer_of_full {line : Bytes} {text : String} (h : Utf8.decode line = .ok text)
    (hprompt : Fits room (shown ++ prompt))
    (hfull : ¬ Fits room (shown ++ prompt ++ shownAs (answerTo text s))) :
    Runs (answer line) (showingIn room shown) s (.error .outputFull)
      (showingIn room (shown ++ prompt ++ shownAs (answerTo text s))) (leaves [text] s) := by
  unfold answer
  rw [h]
  exact (display_runs s (print_of_fits hprompt)).bind ((reply_runs s text _).bind
    (display_runs _ (print_of_full hprompt hfull)).bind_error)

end

/-! ## Conversations -/

/-- The first lines, as many as this, are those with room for their prompts. -/
def Prompted (room : Option Nat) (shown : String) (s : Database × Journal) (read : List String)
    (count : Nat) : Prop :=
  count ≤ read.length ∧ ∀ i < read.length,
    i < count ↔ Fits room (shown ++ transcript (answersTo (read.take i) s) ++ prompt)

/-- What a conversation about lines gives, shows and leaves: all of it if there is room, otherwise
what there is room for. -/
def Talks (room : Option Nat) (x : Dialogue Unit) (shown : String) (s : Database × Journal)
    (read : List String) (result : Except Error Unit) (full : String) : Prop :=
  (Fits room full →
    Runs x (showingIn room shown) s result (showingIn room full) (leaves read s))
  ∧ (¬ Fits room full → ∃ count, Prompted room shown s read count
    ∧ Runs x (showingIn room shown) s (.error .outputFull) (showingIn room full)
      (leaves (read.take count) s))

section

variable {room : Option Nat} {shown : String} {s : Database × Journal} {read : List String}

theorem append_transcript_cons (shown : String) (s : Database × Journal) (text : String)
    (read : List String) : shown ++ transcript (answersTo (text :: read) s)
      = shown ++ prompt ++ shownAs (answerTo text s)
        ++ transcript (answersTo read (leaves [text] s)) := by
  rw [answersTo, transcript_cons, ← String.append_assoc, ← String.append_assoc]

theorem append_transcript_nil (shown : String) (s : Database × Journal) :
    shown ++ transcript (answersTo [] s) = shown := by
  rw [answersTo, transcript_nil, String.append_empty]

theorem Prompted.of_full (hfull : ¬ Fits room (shown ++ prompt)) :
    Prompted room shown s read 0 := by
  refine ⟨Nat.zero_le _, fun i _ => iff_of_false (Nat.not_lt_zero i) fun h => hfull ?_⟩
  cases read with
  | nil => rwa [List.take_nil, append_transcript_nil] at h
  | cons line read =>
    cases i with
    | zero => rwa [List.take_zero, append_transcript_nil] at h
    | succ i =>
      rw [List.take_succ_cons, append_transcript_cons] at h
      exact h.left.left.left

/-- One line more is read if there is room for its prompt. -/
theorem Prompted.cons {text : String} {count : Nat} (hprompt : Fits room (shown ++ prompt))
    (h : Prompted room (shown ++ prompt ++ shownAs (answerTo text s)) (leaves [text] s) read
      count) : Prompted room shown s (text :: read) (count + 1) := by
  refine ⟨Nat.succ_le_succ h.1, fun i hi => ?_⟩
  cases i with
  | zero =>
    rw [List.take_zero, append_transcript_nil]
    exact iff_of_true (Nat.succ_pos _) hprompt
  | succ i =>
    rw [List.take_succ_cons, append_transcript_cons, Nat.succ_lt_succ_iff]
    exact h.2 i (Nat.lt_of_succ_lt_succ hi)

variable {line : Bytes} {text : String} {y : Dialogue Unit}

/-- Without room for an answer a conversation ends there, whatever was to follow. -/
theorem answer_stops (hline : Utf8.decode line = .ok text) (hshown : Fits room shown)
    (hfull : ¬ Fits room (shown ++ prompt ++ shownAs (answerTo text s))) (read : List String)
    (rest : String) : ∃ count, Prompted room shown s (text :: read) count
      ∧ Runs (answer line >>= fun _ => y) (showingIn room shown) s (.error .outputFull)
        (showingIn room (shown ++ prompt ++ shownAs (answerTo text s) ++ rest))
        (leaves ((text :: read).take count) s) := by
  rw [showingIn_of_full hfull]
  by_cases hprompt : Fits room (shown ++ prompt)
  · refine ⟨1, .cons hprompt (.of_full fun h => hfull h.left), ?_⟩
    exact (answer_of_full s hline hprompt hfull).bind_error
  · rw [showingIn_of_full hprompt]
    exact ⟨0, .of_full hprompt, (answer_of_no_prompt s line hshown hprompt).bind_error⟩

theorem Talks.fatal {e : Error} (hline : Utf8.decode line = .ok text) (hshown : Fits room shown)
    (hfatal : fatal? (answerTo text s) = some e) :
    Talks room (answer line >>= fun _ => y) shown s [text] (.error e)
      (shown ++ prompt ++ shownAs (answerTo text s)) := by
  refine ⟨fun hfits => ?_, fun hfull => ?_⟩
  · have hruns := answer_runs s hline hfits
    rw [hfatal] at hruns
    exact hruns.bind_error
  · have hstops := answer_stops (y := y) hline hshown hfull [] ""
    rwa [String.append_empty] at hstops

theorem Talks.next {result : Except Error Unit} {rest : String}
    (hline : Utf8.decode line = .ok text) (hshown : Fits room shown)
    (hfatal : fatal? (answerTo text s) = none)
    (h : Fits room (shown ++ prompt ++ shownAs (answerTo text s)) →
      Talks room y (shown ++ prompt ++ shownAs (answerTo text s)) (leaves [text] s) read result
        (shown ++ prompt ++ shownAs (answerTo text s) ++ rest)) :
    Talks room (answer line >>= fun _ => y) shown s (text :: read) result
      (shown ++ prompt ++ shownAs (answerTo text s) ++ rest) := by
  by_cases hanswer : Fits room (shown ++ prompt ++ shownAs (answerTo text s))
  · have hruns := answer_runs s hline hanswer
    rw [hfatal] at hruns
    refine ⟨fun hfits => ?_, fun hfull => ?_⟩
    · rw [leaves_cons]
      exact hruns.bind ((h hanswer).1 hfits)
    · obtain ⟨count, hcount, hstop⟩ := (h hanswer).2 hfull
      refine ⟨count + 1, .cons hanswer.left hcount, ?_⟩
      rw [List.take_succ_cons, leaves_cons]
      exact hruns.bind hstop
  · exact ⟨fun hfits => absurd hfits.left hanswer,
      fun _ => answer_stops hline hshown hanswer read rest⟩

end

/-- Lines are answered up to the first stop, or as long as there is room. -/
theorem answers_talk (lines : List Bytes) (shown : String) (s : Database × Journal) :
    ∃ read unread result last, lines = read.map Utf8.encode ++ unread
      ∧ Ends (answersTo read s) unread result last
      ∧ ∀ room, Fits room shown →
        Talks room (lines.forM answer >>= fun _ => display prompt) shown s read result
          (shown ++ transcript (answersTo read s) ++ last) := by
  induction lines generalizing shown s with
  | nil =>
    refine ⟨[], [], .ok (), prompt, rfl, .atEnd (List.forall_mem_nil _), fun room hshown => ?_⟩
    rw [append_transcript_nil]
    refine ⟨fun hfits => display_runs s (print_of_fits hfits), fun hfull => ?_⟩
    exact ⟨0, .of_full hfull, display_runs s (print_of_full hshown hfull)⟩
  | cons line lines ih =>
    have hforM : (line :: lines).forM answer = answer line >>= fun _ => lines.forM answer := rfl
    rw [hforM, bind_assoc]
    cases hline : Utf8.decode line with
    | error e =>
      refine ⟨[], line :: lines, .error .inputNotUtf8, prompt, rfl,
        .undecodable (List.forall_mem_nil _) (fun text htext => ?_) rfl rfl,
        fun room hshown => ?_⟩
      · rw [← htext, Utf8.decode_encode] at hline
        cases hline
      · rw [append_transcript_nil]
        refine ⟨fun hfits => (answer_of_undecodable s hline hfits).bind_error, fun hfull => ?_⟩
        exact ⟨0, .of_full hfull, (answer_of_no_prompt s line hshown hfull).bind_error⟩
    | ok text =>
      have hread : line = Utf8.encode text := (Utf8.encode_of_decode hline).symm
      cases hfatal : fatal? (answerTo text s) with
      | some e =>
        obtain ⟨hanswer, he⟩ := fatal?_eq_some hfatal
        have hanswers : answersTo [text] s = [] ++ [some (.error e)] :=
          congrArg ([·]) hanswer
        refine ⟨[text], lines, .error e, "", by rw [hread]; rfl,
          .failed (List.forall_mem_nil _) hanswers he, fun room hshown => ?_⟩
        rw [append_transcript_cons, append_transcript_nil, String.append_empty]
        exact .fatal hline hshown hfatal
      | none =>
        obtain ⟨read, unread, result, last, hlines, hends, hrest⟩ :=
          ih (shown ++ prompt ++ shownAs (answerTo text s)) (leaves [text] s)
        refine ⟨text :: read, unread, result, last, by rw [hlines, hread]; rfl,
          hends.cons hfatal, fun room hshown => ?_⟩
        rw [append_transcript_cons, String.append_assoc]
        refine .next hline hshown hfatal fun hanswer => ?_
        rw [← String.append_assoc]
        exact hrest room hanswer

/-- Lines are answered up to the first stop. -/
theorem answers_go (lines : List Bytes) (shown : String) (s : Database × Journal) :
    ∃ read unread result last, lines = read.map Utf8.encode ++ unread
      ∧ Ends (answersTo read s) unread result last
      ∧ Goes (lines.forM answer >>= fun _ => display prompt) shown s result
        (shown ++ transcript (answersTo read s) ++ last) (leaves read s) := by
  obtain ⟨read, unread, result, last, hlines, hends, htalks⟩ := answers_talk lines shown s
  exact ⟨read, unread, result, last, hlines, hends,
    (htalks none (fits_none shown)).1 (fits_none _)⟩

/-- `run` reads the lines into which the input is cut (`Cut`), up to where the conversation `Ends`;
it shows the `greeting`, the `transcript` of the answers and what comes last, and leaves what the
statements on these lines leave. -/
theorem run_eq_fold (input : Bytes) (s : Database × Journal) :
    ∃ read unread result last, Cut input (read.map Utf8.encode ++ unread)
      ∧ Ends (answersTo read s) unread result last
      ∧ (((run input).run.run (.blank none)).run s.1).run s.2
        = (((result, ⟨Utf8.encode (greeting ++ transcript (answersTo read s) ++ last), none⟩),
            (leaves read s).1), (leaves read s).2) := by
  obtain ⟨read, unread, result, last, hlines, hends, hgoes⟩ :=
    answers_go (linesOf input) greeting s
  refine ⟨read, unread, result, last, hlines ▸ cut_linesOf input, hends, ?_⟩
  have hgreeting : Goes (display greeting) "" s (.ok ()) greeting s := display_goes "" s greeting
  exact hgreeting.bind hgoes

/-- The conversation in any room. -/
theorem run_runs (input : Bytes) (s : Database × Journal) :
    ∃ read unread result last, linesOf input = read.map Utf8.encode ++ unread
      ∧ Ends (answersTo read s) unread result last
      ∧ ∀ room full, full = greeting ++ transcript (answersTo read s) ++ last →
        (Fits room full →
          Runs (run input) (.blank room) s result (showingIn room full) (leaves read s))
        ∧ (¬ Fits room full → ∃ count, Prompted room greeting s read count
          ∧ Runs (run input) (.blank room) s (.error .outputFull) (showingIn room full)
            (leaves (read.take count) s)) := by
  obtain ⟨read, unread, result, last, hlines, hends, htalks⟩ :=
    answers_talk (linesOf input) greeting s
  refine ⟨read, unread, result, last, hlines, hends, fun room full hfull => ?_⟩
  subst hfull
  have hfirst : "" ++ greeting = greeting := String.empty_append
  rw [← showingIn_empty]
  by_cases hgreeting : Fits room greeting
  · have hruns := display_runs s (print_of_fits (hfirst.symm ▸ hgreeting))
    rw [hfirst] at hruns
    obtain ⟨hall, hcut⟩ := htalks room hgreeting
    refine ⟨fun hfits => hruns.bind (hall hfits), fun hfull => ?_⟩
    obtain ⟨count, hcount, hstop⟩ := hcut hfull
    exact ⟨count, hcount, hruns.bind hstop⟩
  · refine ⟨fun hfits => absurd hfits.left.left hgreeting, fun _ => ?_⟩
    refine ⟨0, .of_full fun h => hgreeting h.left, ?_⟩
    have hruns := display_runs s (print_of_full (fits_empty room) (hfirst.symm ▸ hgreeting))
    rw [hfirst] at hruns
    rw [String.append_assoc, showingIn_of_full hgreeting]
    exact hruns.bind_error

/-- On a screen for `n` bytes `run` shows the first `n` bytes of what it shows on one without bound.
If these are not all, it fails with `outputFull`, and leaves what the statements on those lines
leave whose prompts are shown in full. -/
theorem run_within (input : Bytes) (s : Database × Journal) (n : Nat) :
    ∃ read unread result last full, Cut input (read.map Utf8.encode ++ unread)
      ∧ Ends (answersTo read s) unread result last
      ∧ full = Utf8.encode (greeting ++ transcript (answersTo read s) ++ last)
      ∧ (((run input).run.run (.blank none)).run s.1).run s.2
        = (((result, ⟨full, none⟩), (leaves read s).1), (leaves read s).2)
      ∧ (full.length ≤ n → (((run input).run.run (.blank (some n))).run s.1).run s.2
        = (((result, ⟨full, some (n - full.length)⟩), (leaves read s).1), (leaves read s).2))
      ∧ (n < full.length → Error.outputFull.kind = .runtime ∧ Error.outputFull.isFatal = false
        ∧ ∃ count ≤ read.length, (∀ i < read.length, i < count ↔
          (Utf8.encode (greeting ++ transcript (answersTo (read.take i) s) ++ prompt)).length ≤ n)
        ∧ (((run input).run.run (.blank (some n))).run s.1).run s.2
          = (((.error .outputFull, ⟨full.take n, some 0⟩), (leaves (read.take count) s).1),
            (leaves (read.take count) s).2)) := by
  obtain ⟨read, unread, result, last, hlines, hends, hruns⟩ := run_runs input s
  refine ⟨read, unread, result, last, _, hlines ▸ cut_linesOf input, hends, rfl,
    (hruns none _ rfl).1 (fits_none _), fun hle => ?_, fun hlt => ?_⟩
  · have hall := (hruns (some n) _ rfl).1 (fits_some_iff.2 hle)
    rwa [showingIn, List.take_of_length_le hle] at hall
  · have hfull : ¬ Fits (some n) (greeting ++ transcript (answersTo read s) ++ last) :=
      fun h => Nat.not_le_of_lt hlt (fits_some_iff.1 h)
    obtain ⟨count, hcount, hcut⟩ := (hruns (some n) _ rfl).2 hfull
    refine ⟨rfl, rfl, count, hcount.1, fun i hi => ?_, ?_⟩
    · rw [hcount.2 i hi, fits_some_iff]
    · rwa [showingIn, Nat.sub_eq_zero_of_le (Nat.le_of_lt hlt)] at hcut

end RelQuery.Console
