/-
  What a session reports about itself: records of five levels, and the filter on them.
-/
namespace RelQuery.Log

inductive Level where
  | error
  | warn
  | info
  | debug
  | trace
  deriving DecidableEq, Repr

namespace Level

def name : Level → String
  | error => "ERROR"
  | warn => "WARN"
  | info => "INFO"
  | debug => "DEBUG"
  | trace => "TRACE"

/-- From the gravest level, 1, to the most talkative, 5. -/
def verbosity : Level → Nat
  | error => 1
  | warn => 2
  | info => 3
  | debug => 4
  | trace => 5

end Level

/-- How much is let through: nothing, or everything up to a level. -/
inductive Filter where
  | off
  | upTo (level : Level)
  deriving DecidableEq, Repr

namespace Filter

def name : Filter → String
  | off => "OFF"
  | upTo l => l.name

def verbosity : Filter → Nat
  | off => 0
  | upTo l => l.verbosity

def all : List Filter :=
  [off, upTo .error, upTo .warn, upTo .info, upTo .debug, upTo .trace]

/-- The filter of that name, whose letters may be of either case. -/
def ofName? (name : String) : Option Filter :=
  all.find? fun f => f.name = name.toUpper

/-- Whether a record of this level passes. -/
def passes (filter : Filter) (level : Level) : Bool :=
  level.verbosity ≤ filter.verbosity

end Filter

/-- One report. -/
structure Record where
  level : Level
  text : String
  deriving DecidableEq, Repr

/-- The reports so far, the oldest first. -/
abbrev Journal := List Record

/-- Adds a report to the journal. -/
def report {m : Type → Type} [MonadStateOf Journal m] (level : Level) (text : String) : m Unit :=
  modifyThe Journal (· ++ [⟨level, text⟩])

end RelQuery.Log
