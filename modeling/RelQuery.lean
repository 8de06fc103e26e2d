import RelQuery.Binding
import RelQuery.Bytes
import RelQuery.Catalog
import RelQuery.Config
import RelQuery.Console
import RelQuery.Database
import RelQuery.Datum
import RelQuery.Error
import RelQuery.Execution
import RelQuery.JoinTree
import RelQuery.Log
import RelQuery.Main
import RelQuery.Operator
import RelQuery.Operator.Loop
import RelQuery.Operator.Source
import RelQuery.Plan
import RelQuery.Predicate
import RelQuery.Proofs.Bytes
import RelQuery.Proofs.Catalog
import RelQuery.Proofs.Console
import RelQuery.Proofs.Database
import RelQuery.Proofs.Except
import RelQuery.Proofs.JoinTree.Build
import RelQuery.Proofs.JoinTree.Greedy
import RelQuery.Proofs.JoinTree.Growth
import RelQuery.Proofs.JoinTree.Links
import RelQuery.Proofs.JoinTree.Plan
import RelQuery.Proofs.Ledger.History
import RelQuery.Proofs.Ledger.Holdings
import RelQuery.Proofs.Numbering
import RelQuery.Proofs.Operator.Alike
import RelQuery.Proofs.Operator.Anew
import RelQuery.Proofs.Operator.Calls
import RelQuery.Proofs.Operator.Count
import RelQuery.Proofs.Operator.Drain
import RelQuery.Proofs.Operator.Ended
import RelQuery.Proofs.Operator.Hands
import RelQuery.Proofs.Operator.Scan
import RelQuery.Proofs.Plan.Explanation
import RelQuery.Proofs.Plan.Product
import RelQuery.Proofs.Plan.Rows
import RelQuery.Proofs.Query.Answer
import RelQuery.Proofs.Query.Binding
import RelQuery.Proofs.Query.Mismatch
import RelQuery.Proofs.Query.Names
import RelQuery.Proofs.Query.Refusals
import RelQuery.Proofs.Query.Reordering
import RelQuery.Proofs.Query.Select
import RelQuery.Proofs.Query.Unreadable
import RelQuery.Proofs.Reading
import RelQuery.Proofs.Record
import RelQuery.Proofs.Record.Canonical
import RelQuery.Proofs.Record.Order
import RelQuery.Proofs.Record.Place
import RelQuery.Proofs.Restart
import RelQuery.Proofs.Row
import RelQuery.Proofs.Row.Combine
import RelQuery.Proofs.Row.Part
import RelQuery.Proofs.Served
import RelQuery.Proofs.Session
import RelQuery.Proofs.SortedMap
import RelQuery.Proofs.Sql.Clauses
import RelQuery.Proofs.Sql.Conditions
import RelQuery.Proofs.Sql.Keys
import RelQuery.Proofs.Sql.Refusals
import RelQuery.Proofs.Sql.Rest
import RelQuery.Proofs.Sql.Signs
import RelQuery.Proofs.Statement.Alike
import RelQuery.Proofs.Statement.Exchange
import RelQuery.Proofs.Statement.Safe
import RelQuery.Proofs.Statement.Unchanged
import RelQuery.Proofs.Store
import RelQuery.Proofs.Store.Cursor
import RelQuery.Proofs.Text.Utf8
import RelQuery.Record
import RelQuery.Request
import RelQuery.Row
import RelQuery.Schema
import RelQuery.Schema.Record
import RelQuery.Scope
import RelQuery.Session
import RelQuery.SortedMap
import RelQuery.Sql.Grammar.Alteration
import RelQuery.Sql.Grammar.Change
import RelQuery.Sql.Grammar.Control
import RelQuery.Sql.Grammar.Copy
import RelQuery.Sql.Grammar.DataType
import RelQuery.Sql.Grammar.Definition
import RelQuery.Sql.Grammar.Expr
import RelQuery.Sql.Grammar.Level
import RelQuery.Sql.Grammar.Privilege
import RelQuery.Sql.Grammar.Query
import RelQuery.Sql.Grammar.Statement
import RelQuery.Sql.Grammar.Table
import RelQuery.Sql.Grammar.Upkeep
import RelQuery.Sql.Keyword
import RelQuery.Sql.Lexer
import RelQuery.Sql.Parser
import RelQuery.Sql.Reading
import RelQuery.Sql.SyntaxError
import RelQuery.Sql.Token
import RelQuery.Sql.Tree
import RelQuery.Store
import RelQuery.Store.Image
import RelQuery.Store.Pages
import RelQuery.Text.Alphabetic
import RelQuery.Text.Blank
import RelQuery.Text.CharRanges
import RelQuery.Text.DefaultIgnorable
import RelQuery.Text.GraphemeExtend
import RelQuery.Text.Numeric
import RelQuery.Text.Printable
import RelQuery.Text.Utf8
