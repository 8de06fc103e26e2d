/-
  The console: one statement a line, each answered before the next line is read.

  The console stops at the end of its input, at a line that is no UTF-8, after a fatal error,
  and when its screen is full. What was carried out before that stays done.
-/
import RelQuery.Session

namespace RelQuery.Console

open Log (Journal)

/-! ## Texts -/

def greeting : String := "Welcome to spjql!\n"

def prompt : String := "spjql> "

/-- A table of values under its columns, or how many rows were written. -/
def resultText (r : Session.Result) : String :=
  let o := r.outcome
  if r.isQuery then
    let lines := "\t".intercalate o.columns :: o.rows.map fun vs => (Row.projected vs).text
    String.join (lines.map (· ++ "\n")) ++ "(" ++ toString o.rows.length ++ " rows)\n"
  else if o.affected > 0 then "OK, " ++ toString o.affected ++ " row(s) affected\n"
  else "OK\n"

def errorText (e : Error) : String := "Error: " ++ e.text ++ "\n"

/-! ## Answers -/

/-- What the console shows for a line, and the error that ends it, if there is one. -/
structure Reply where
  text : String
  fatal : Option Error
  deriving DecidableEq, Repr

/-- The reply to a result or an error. -/
def Reply.of : Except Error Session.Result → Reply
  | .ok r => ⟨resultText r, none⟩
  | .error e => ⟨errorText e, if e.isFatal then some e else none⟩

/-- Carries out a line, without the white space around it; an empty one is passed over. -/
def reply (line : String) : StateT Database (StateM Journal) Reply := do
  let statement := Blank.trim line.toList
  if statement.isEmpty then return ⟨"", none⟩
  else return .of (← (Session.execute (String.ofList statement)).run)

/-! ## Screens -/

/-- What has been shown, and how many more bytes can be; without a number, any. -/
structure Screen where
  shown : Bytes
  room : Option Nat
  deriving DecidableEq, Repr

namespace Screen

def blank (room : Option Nat) : Screen := ⟨[], room⟩

/-- Shows as much as there is room for. -/
def print (text : String) (s : Screen) : Screen × Except Error Unit :=
  let bytes := Utf8.encode text
  match s.room with
  | none => (⟨s.shown ++ bytes, none⟩, .ok ())
  | some room =>
    (⟨s.shown ++ bytes.take room, some (room - bytes.length)⟩,
      if bytes.length ≤ room then .ok () else .error .outputFull)

end Screen

/-! ## Dialogues -/

/-- The lines of an input, each up to its line feed; a last line need not have one. -/
def linesOf (input : Bytes) : List Bytes := go [] input
where
  go (line : Bytes) : Bytes → List Bytes
    | [] => if line.isEmpty then [] else [line.reverse]
    | b :: bs => if b = 10 then (b :: line).reverse :: go [] bs else go (b :: line) bs

/-- A conversation on a screen about a database. -/
abbrev Dialogue (α : Type) := ExceptT Error (StateT Screen (StateT Database (StateM Journal))) α

/-- Shows a text. -/
def display (text : String) : Dialogue Unit := do
  let (screen, result) := Screen.print text (← getThe Screen)
  set screen
  MonadExcept.ofExcept result

/-- Prompts, reads a line and answers it. -/
def answer (line : Bytes) : Dialogue Unit := do
  display prompt
  match Utf8.decode line with
  | .error _ => throw .inputNotUtf8
  | .ok text =>
    let r ← ExceptT.lift (StateT.lift (reply text))
    display r.text
    if let some e := r.fatal then throw e

/-- The whole conversation; the last prompt is for the end of the input. -/
def run (input : Bytes) : Dialogue Unit := do
  display greeting
  (linesOf input).forM answer
  display prompt

end RelQuery.Console
