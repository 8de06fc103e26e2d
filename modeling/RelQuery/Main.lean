/-
  The command line: a console on a database, kept in memory or in the directory named by the
  first argument. The log goes to the standard error stream.
-/
import RelQuery.Console
import RelQuery.Store.Image

namespace RelQuery.Main

open Log (Journal)

/-! ## The log -/

/-- A number in a field of some width, with `fill` in front. -/
def inField (fill : Char) (width n : Nat) : String :=
  let digits := toString n
  "".pushn fill (width - digits.length) ++ digits

/-- A report behind the time in milliseconds at which it was made. -/
def logLine (time : Nat) (r : Log.Record) : String :=
  let level := r.level.name
  "[" ++ inField ' ' 4 (time / 1000) ++ "." ++ inField '0' 3 (time % 1000) ++ "s "
    ++ level.pushn ' ' (5 - level.length) ++ "] " ++ r.text

/-- Shows the reports that pass the filter. -/
def showLog (started : Nat) (filter : Log.Filter) (journal : Journal) : IO Unit := do
  let time := (← IO.monoMsNow) - started
  for r in journal do
    if filter.passes r.level then IO.eprintln (logLine time r)

/-! ## The store between runs -/

/-- The file of a durable store inside its directory. -/
def imagePath (dir : String) : String := dir ++ "/store.image"

/-- The store of an earlier run; without one, an empty store. -/
def loadStore (config : Config) : IO (Except Error Store) := do
  match config.dataDir with
  | none => return .ok .volatile
  | some dir =>
    IO.FS.createDirAll dir
    try
      let image ← IO.FS.readBinFile (imagePath dir)
      return (Store.Image.decode image.toList).map Store.reopened
    catch
      | .noFileOrDirectory .. => return .ok .durable
      | e => throw e

/-- Keeps the store for the next run, if it is durable. -/
def saveStore (db : Database) : IO Unit := do
  if let some dir := db.config.dataDir then
    IO.FS.writeBinFile (imagePath dir) ⟨(Store.Image.encode db.store).toArray⟩

/-! ## The console -/

/-- Answers line after line; the answer is the database left, and whether all went well. -/
partial def converse (started : Nat) (db : Database) : IO (Database × Bool) := do
  let output ← IO.getStdout
  output.putStr Console.prompt
  output.flush
  let line ← (← IO.getStdin).getLine
  if line.isEmpty then return (db, true)
  let ((reply, db), journal) := ((Console.reply line).run db).run []
  showLog started db.config.logLevel journal
  output.putStr reply.text
  output.flush
  if reply.fatal.isSome then return (db, false)
  converse started db

/-- Runs a console on the database of the settings. -/
def run (config : Config) : IO Bool := do
  let started ← IO.monoMsNow
  let opened := (← loadStore config).map fun store =>
    (Database.openStore config store).run.run []
  match opened with
  | .error e | .ok (.error e, _) =>
    IO.eprintln ("Error: " ++ e.text)
    return false
  | .ok (.ok db, journal) =>
    showLog started config.logLevel journal
    IO.print Console.greeting
    let (db, fine) ← converse started db
    saveStore db
    if fine then showLog started config.logLevel [⟨.info, "Bye"⟩]
    return fine

end RelQuery.Main

def main (args : List String) : IO UInt32 := do
  let log ← IO.getEnv RelQuery.Config.logVariable
  let hashJoin ← IO.getEnv RelQuery.Config.hashJoinVariable
  let config := RelQuery.Config.ofEnvironment ("relquery" :: args) log hashJoin
  return if ← RelQuery.Main.run config then 0 else 1
