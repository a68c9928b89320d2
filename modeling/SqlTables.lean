import SqlTables.Binary64
import SqlTables.Calendar
import SqlTables.CommandLine
import SqlTables.CommandLine.Arguments
import SqlTables.CommandLine.Config
import SqlTables.CommandLine.Extract
import SqlTables.CommandLine.Session
import SqlTables.CommandLine.Usage
import SqlTables.Datum
import SqlTables.Datum.Json
import SqlTables.Diagnostic
import SqlTables.Dialect
import SqlTables.Encoding.Base64
import SqlTables.Encoding.Utf8
import SqlTables.Entries
import SqlTables.Extraction
import SqlTables.Extraction.Report
import SqlTables.Form
import SqlTables.Grammar
import SqlTables.Grammar.Call
import SqlTables.Grammar.Change
import SqlTables.Grammar.Creation
import SqlTables.Grammar.Expression
import SqlTables.Grammar.Identifier
import SqlTables.Grammar.Lexeme
import SqlTables.Grammar.Names
import SqlTables.Grammar.Primary
import SqlTables.Grammar.Query
import SqlTables.Grammar.Reading
import SqlTables.Grammar.Source
import SqlTables.Grammar.Statement
import SqlTables.Grammar.Tree
import SqlTables.Grammar.Word
import SqlTables.Input
import SqlTables.Log.Entry
import SqlTables.Log.Folder
import SqlTables.Main
import SqlTables.Proofs.Encoding.Base64
import SqlTables.Proofs.Encoding.Utf8
import SqlTables.Proofs.FromClause
import SqlTables.Proofs.Input
import SqlTables.Proofs.Scan.Binding
import SqlTables.Proofs.Scan.Creation
import SqlTables.Proofs.Scan.Gather
import SqlTables.Proofs.Scan.Group
import SqlTables.Proofs.Scan.Moved
import SqlTables.Proofs.Scan.Naming
import SqlTables.Proofs.Scan.Nested
import SqlTables.Proofs.Scan.Relocation
import SqlTables.Proofs.Scan.Sight
import SqlTables.Proofs.Scan.Stack
import SqlTables.Proofs.Scan.TopLevel
import SqlTables.Proofs.Scan.Turn
import SqlTables.Proofs.Scan.Within
import SqlTables.Proofs.Subquery
import SqlTables.Proofs.Token.Order
import SqlTables.Proofs.Token.Parenthesis
import SqlTables.Proofs.Unclosed
import SqlTables.Proofs.WithClause
import SqlTables.Reference
import SqlTables.Scan
import SqlTables.Scan.DottedName
import SqlTables.Scan.Flat
import SqlTables.Scan.Frame
import SqlTables.Scan.Lookahead
import SqlTables.Scan.Query
import SqlTables.Scope
import SqlTables.Scope.Tree
import SqlTables.Settings
import SqlTables.Settings.ConfigFile
import SqlTables.Settings.Key
import SqlTables.Similarity
import SqlTables.Span
import SqlTables.Statement
import SqlTables.Statement.Kind
import SqlTables.TableSet
import SqlTables.Text
import SqlTables.Text.ControlSequence
import SqlTables.Token
import SqlTables.Token.Keyword
import SqlTables.Token.Lexer
import SqlTables.Toml.Document
import SqlTables.Toml.Moment
import SqlTables.Toml.Value
import SqlTables.Unicode.Blank
import SqlTables.Unicode.CaseFold
import SqlTables.Unicode.CaseRun
import SqlTables.Unicode.Interval
import SqlTables.Unicode.Letter
import SqlTables.Unicode.LowerCase
import SqlTables.Unicode.Number
import SqlTables.Unicode.Printable
import SqlTables.Unicode.UpperCase
import SqlTables.Proofs.DerivedTable
import SqlTables.Proofs.Token.Rule
import SqlTables.Proofs.Token.Lexeme
import SqlTables.Proofs.Token.Cut
import SqlTables.Proofs.Token.Literal
import SqlTables.Proofs.Token.Word
import SqlTables.Proofs.Unicode.LetterCase
import SqlTables.Proofs.Token.Seam
import SqlTables.Proofs.Respelling
import SqlTables.Proofs.Found
import SqlTables.Proofs.Opacity
import SqlTables.Proofs.Entries
import SqlTables.Proofs.Toml.Distinct
import SqlTables.Proofs.Settings.Row
import SqlTables.Proofs.Settings.Section
import SqlTables.Proofs.Settings.Listing
import SqlTables.Proofs.ConfigFile
import SqlTables.Proofs.Token.Lossless
import SqlTables.Proofs.Scan.Covers
import SqlTables.Proofs.BoundName
import SqlTables.Proofs.SetOperation
import SqlTables.Proofs.Scan.Reads
import SqlTables.Proofs.Plain.Phrase
import SqlTables.Proofs.Plain.Reading
import SqlTables.Proofs.Plain.Engines
import SqlTables.Proofs.Closing
import SqlTables.Proofs.Scan.Reports
import SqlTables.Proofs.Matching
import SqlTables.Proofs.Token.Truncate
import SqlTables.Proofs.Slice
import SqlTables.Proofs.Scan.Weaker
import SqlTables.Proofs.Scan.Hazard
import SqlTables.Proofs.DepthLimit
import SqlTables.Proofs.Scan.Leading
import SqlTables.Proofs.PlainGroup
import SqlTables.Proofs.Scan.Spelling
import SqlTables.Proofs.Quotation
import SqlTables.Proofs.Scan.Enclosed
import SqlTables.Proofs.EnclosedQuery
import SqlTables.Proofs.Walk
import SqlTables.Proofs.Tables
import SqlTables.Proofs.Run
import SqlTables.Proofs.QuotedName
import SqlTables.Proofs.Join
import SqlTables.Proofs.Layout
import SqlTables.Proofs.Composition
import SqlTables.Proofs.CurrentDatabase
import SqlTables.Proofs.Token.LetterCase
import SqlTables.Proofs.LetterCase
import SqlTables.Proofs.Consistency
import SqlTables.Proofs.Fallback
import SqlTables.Proofs.Scan.Behind
import SqlTables.Proofs.Scan.Quiet
import SqlTables.Proofs.WriteTarget
import SqlTables.Proofs.Settings.Loading
import SqlTables.Proofs.Settings.Stored
import SqlTables.Proofs.Settings.Fields
import SqlTables.Proofs.Settings.Removal
import SqlTables.Proofs.Settings.Written
import SqlTables.Proofs.Settings.Edit
import SqlTables.Proofs.StoredSettings
import SqlTables.Proofs.Answered
import SqlTables.Proofs.Calendar
import SqlTables.Proofs.Retention
import SqlTables.Proofs.Editable
import SqlTables.Proofs.FormReply
import SqlTables.Proofs.Text
import SqlTables.Proofs.Payload
import SqlTables.Proofs.Upload
import SqlTables.Proofs.Token.Delimiter
import SqlTables.Proofs.Unterminated
import SqlTables.Proofs.Scan.Origin
import SqlTables.Proofs.CteNames
import SqlTables.Proofs.Partition
import SqlTables.Proofs.ConfigDisplay
import SqlTables.Proofs.Log.FileName
import SqlTables.Proofs.LogHistory
import SqlTables.Proofs.LineColumn
import SqlTables.Proofs.Stream
import SqlTables.Proofs.Unicode.PlainLetters
import SqlTables.Proofs.FormFields
import SqlTables.Proofs.Scan.Placement
import SqlTables.Proofs.Locations
import SqlTables.Proofs.LexicalScope
import SqlTables.Proofs.FirstSpelling
