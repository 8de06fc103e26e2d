/-
  Everything that can go wrong, by cause. Each cause has a kind, which is what callers
  branch on, and a message, which is what people read.
-/
import RelQuery.Datum
import RelQuery.Sql.SyntaxError

namespace RelQuery

/-- The kinds of failure, grouped into parse, schema, plan, storage and runtime failures. -/
inductive ErrorKind where
  | parse
  | relationExists
  | relationNotFound
  | ambiguousAttribute
  | unknownAttribute
  | unresolvedRelation
  | typeMismatch
  | invalidDefinition
  | malformedQuery
  | cycle
  | cartesianProduct
  | notImplemented
  | storageFault
  | runtime
  deriving DecidableEq, Repr, Inhabited

namespace ErrorKind

/-- The kind's heading in front of a message. -/
def heading : ErrorKind → String
  | parse => "Parse Error"
  | relationExists => "Schema Error (relation exists)"
  | relationNotFound => "Schema Error (relation not found)"
  | ambiguousAttribute => "Schema Error (ambiguous attribute)"
  | unknownAttribute => "Schema Error (unknown attribute)"
  | unresolvedRelation => "Schema Error (unresolved relation)"
  | typeMismatch => "Schema Error (type mismatch)"
  | invalidDefinition => "Schema Error (invalid definition)"
  | malformedQuery => "Plan Error (malformed query)"
  | cycle => "Plan Error (cycle)"
  | cartesianProduct => "Plan Error (cartesian product)"
  | notImplemented => "Plan Error (not implemented)"
  | storageFault => "Storage Fault"
  | runtime => "Runtime Error"

/-- A message under its heading. -/
def headed (kind : ErrorKind) (message : String) : String :=
  kind.heading ++ ": " ++ message

/-- Schema failures: a name or a value does not fit the catalog. -/
def isSchema : ErrorKind → Bool
  | relationExists | relationNotFound | ambiguousAttribute | unknownAttribute
  | unresolvedRelation | typeMismatch | invalidDefinition => true
  | _ => false

/-- Plan failures: the names fit, the query has no plan. -/
def isPlan : ErrorKind → Bool
  | malformedQuery | cycle | cartesianProduct | notImplemented => true
  | _ => false

/-- After a storage fault the state of the database is unknown, so nothing may go on. -/
def isFatal : ErrorKind → Bool
  | storageFault => true
  | _ => false

end ErrorKind

/-- A cause of failure, with what its message names. Texts of rows, predicates and plans are
carried as they are shown. -/
inductive Error where
  /-- The text is no statement of the language. -/
  | syntaxError (cause : Sql.SyntaxError)
  /-- The statement is well formed but asks for something that is not offered. -/
  | unsupported (what : String)
  | invalidTableName (name : String)
  | undefinedKeyColumn (column : String)
  | unsupportedLiteral (literal : String)
  | emptyInteger
  | invalidInteger (digits : String)
  | integerOverflow (digits : String)
  | unknownDataType (detail : String)
  | relationExists (relation : String)
  | relationNotFound (relation : String)
  | ambiguousAttribute (name : String) (candidates : List String)
  | attributeNotInScope (name : String)
  | unknownAttribute (relation name : String)
  | unresolvedRelation (relation name : String)
  | arityMismatch (relation : String) (expected got : Nat)
  | typeMismatch (position : Nat) (expected got : Ty)
  | noAttributes (relation : String)
  | duplicateAttribute (name relation : String)
  | keyOutOfRange (position : Nat) (relation : String)
  | reservedName
  | repeatedRelation (relation : String)
  | constantPredicate (predicate : String)
  | noRelation
  | tooFewJoins (relations found : Nat)
  | tooManyJoins (relations found : Nat)
  | closesCycle (predicate : String)
  | unconnected (predicates : List String)
  | notImplemented (feature : String)
  | truncatedRecord (need offset left : Nat)
  | trailingBytes (count : Nat)
  /-- A sequence of `length` bytes from `index` on is no UTF-8. -/
  | invalidUtf8 (length index : Nat)
  /-- The bytes end inside the UTF-8 sequence that starts at `index`. -/
  | incompleteUtf8 (index : Nat)
  | unknownTypeTag (tag : UInt8)
  | invalidKeyPosition (position : Int) (relation : String)
  /-- A catalog record holds a schema that could not have been defined. -/
  | corruptSchema (cause : Error)
  | missingPartition (name : String)
  /-- A durable store keeps one partition for good. -/
  | partitionNotRemovable
  /-- A durable store cannot read a table whose partition was removed. -/
  | tableGone (partition : String)
  | relationNotInRow (row relation : String)
  | noValueAt (position : Nat) (tuple : String)
  | projectedRowJoined
  | repeatedRowOf (relation : String)
  | scanNotOpen (relation : String)
  | projectionNotRestartable
  | rightNotRestartable (predicate : String)
  | notAQueryPlan (plan : String)
  | notAProjection (plan : String)
  | inputNotUtf8
  | outputFull
  deriving DecidableEq, Repr

namespace Error

def kind : Error → ErrorKind
  | syntaxError _ | unsupported _ | invalidTableName _ | undefinedKeyColumn _
  | unsupportedLiteral _ | emptyInteger | invalidInteger _ | integerOverflow _
  | unknownDataType _ => .parse
  | relationExists _ => .relationExists
  | relationNotFound _ => .relationNotFound
  | ambiguousAttribute .. => .ambiguousAttribute
  | attributeNotInScope _ | unknownAttribute .. => .unknownAttribute
  | unresolvedRelation .. => .unresolvedRelation
  | arityMismatch .. | typeMismatch .. => .typeMismatch
  | noAttributes _ | duplicateAttribute .. | keyOutOfRange .. | reservedName
  | repeatedRelation _ => .invalidDefinition
  | constantPredicate _ | noRelation => .malformedQuery
  | tooManyJoins .. | closesCycle _ => .cycle
  | tooFewJoins .. | unconnected _ => .cartesianProduct
  | notImplemented _ => .notImplemented
  | truncatedRecord .. | trailingBytes _ | invalidUtf8 .. | incompleteUtf8 _
  | unknownTypeTag _ | invalidKeyPosition .. | corruptSchema _ | missingPartition _
  | partitionNotRemovable | tableGone _ => .storageFault
  | relationNotInRow .. | noValueAt .. | projectedRowJoined | repeatedRowOf _ | scanNotOpen _
  | projectionNotRestartable | rightNotRestartable _ | notAQueryPlan _ | notAProjection _
  | inputNotUtf8 | outputFull => .runtime

/-- With what the answer to every text begins that the grammar refuses. -/
def syntaxHeading : String := "sql parser error"

def message : Error → String
  | syntaxError cause => syntaxHeading ++ ": " ++ cause.message
  | unsupported what => "unsupported: " ++ what
  | invalidTableName name => "invalid table name: " ++ name
  | undefinedKeyColumn column => "primary key column " ++ column ++ " not defined"
  | unsupportedLiteral literal => "unsupported literal: " ++ literal
  | emptyInteger => ": cannot parse integer from empty string"
  | invalidInteger digits => digits ++ ": invalid digit found in string"
  | integerOverflow digits => digits ++ ": number too large to fit in target type"
  | unknownDataType detail => "Unknown data type: " ++ detail
  | relationExists r => "relation " ++ r ++ " already exists"
  | relationNotFound r => "relation " ++ r ++ " does not exist"
  | ambiguousAttribute a candidates =>
    "attribute " ++ a ++ " is ambiguous, candidates: " ++ ", ".intercalate candidates
  | attributeNotInScope a => "no relation in FROM has attribute " ++ a
  | unknownAttribute r a => "relation " ++ r ++ " has no attribute " ++ a
  | unresolvedRelation r name => "relation " ++ r ++ " of " ++ name ++ " is not in FROM"
  | arityMismatch r expected got =>
    "relation " ++ r ++ " expects " ++ toString expected ++ " values, got " ++ toString got
  | typeMismatch position expected got =>
    "at position " ++ toString position ++ " expecting " ++ expected.text ++ ", but got "
      ++ got.text
  | noAttributes r => "relation " ++ r ++ " has no attributes"
  | duplicateAttribute a r => "duplicate attribute " ++ a ++ " in relation " ++ r
  | keyOutOfRange position r =>
    "primary key position " ++ toString position ++ " out of range for relation " ++ r
  | reservedName => "relation names starting with __ are reserved"
  | repeatedRelation r => "relation " ++ r ++ " appears more than once in FROM"
  | constantPredicate p => "predicate " ++ p ++ " references no attribute"
  | noRelation => "query references no relation"
  | tooFewJoins relations found =>
    toString relations ++ " relations need " ++ toString (relations - 1)
      ++ " join predicates to be connected, found " ++ toString found
  | tooManyJoins relations found =>
    toString found ++ " join predicates over " ++ toString relations
      ++ " relations form a cycle"
  | closesCycle p => "join predicate " ++ p ++ " closes a cycle"
  | unconnected ps =>
    "no join predicate connects " ++ ", ".intercalate ps ++ " to the rest of the query"
  | notImplemented feature => feature
  | truncatedRecord need offset left =>
    "truncated record: need " ++ toString need ++ " bytes at offset " ++ toString offset
      ++ ", have " ++ toString left
  | trailingBytes count => toString count ++ " trailing bytes in record"
  | invalidUtf8 length index =>
    "invalid utf-8: invalid utf-8 sequence of " ++ toString length ++ " bytes from index "
      ++ toString index
  | incompleteUtf8 index =>
    "invalid utf-8: incomplete utf-8 byte sequence from index " ++ toString index
  | unknownTypeTag tag => "unknown type tag in catalog record: " ++ toString tag.toNat
  | invalidKeyPosition position r =>
    "invalid primary key position " ++ toString position ++ " for " ++ r
  | corruptSchema cause => cause.message
  | missingPartition name => "partition " ++ name ++ " does not exist"
  | partitionNotRemovable => "sled error: Unsupported: cannot remove the core structures"
  | tableGone partition =>
    let bytes := partition.toUTF8.toList.map fun b => toString b.toNat
    "sled error: Collection [" ++ ", ".intercalate bytes ++ "] does not exist"
  | relationNotInRow row r => "row " ++ row ++ " carries nothing of relation " ++ r
  | noValueAt position tuple => "no value at position " ++ toString position ++ " of " ++ tuple
  | projectedRowJoined => "projected rows cannot be joined"
  | repeatedRowOf r => "composite row already holds a row of relation " ++ r
  | scanNotOpen r => "scan of " ++ r ++ " is not open"
  | projectionNotRestartable => "projection cannot be restarted"
  | rightNotRestartable p =>
    "right input of nested-loop join on " ++ p ++ " cannot be restarted"
  | notAQueryPlan plan => plan ++ " is not a query plan"
  | notAProjection plan => "query plan does not end in a projection:\n" ++ plan
  | inputNotUtf8 => "io error: stream did not contain valid UTF-8"
  | outputFull => "io error: failed to write whole buffer"

/-- The whole error as it is shown: heading and message. -/
def text (e : Error) : String := e.kind.headed e.message

def isFatal (e : Error) : Bool := e.kind.isFatal

end Error

end RelQuery
