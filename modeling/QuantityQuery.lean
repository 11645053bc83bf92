import QuantityQuery.Catalogue.Basic
import QuantityQuery.Catalogue.Error
import QuantityQuery.Catalogue.Field
import QuantityQuery.Catalogue.Json
import QuantityQuery.Catalogue.Unit
import QuantityQuery.CommandLine.Arguments
import QuantityQuery.CommandLine.Run
import QuantityQuery.Config.Basic
import QuantityQuery.Config.Json
import QuantityQuery.Config.Path
import QuantityQuery.Config.SetUp
import QuantityQuery.Detection.Expression
import QuantityQuery.Detection.Occurrence
import QuantityQuery.Error
import QuantityQuery.Event
import QuantityQuery.Json.Number
import QuantityQuery.Json.Reader
import QuantityQuery.Json.Record
import QuantityQuery.Json.Tree
import QuantityQuery.Main
import QuantityQuery.Number.Binary
import QuantityQuery.Number.Decimal
import QuantityQuery.Number.Numeral
import QuantityQuery.Number.Shortest
import QuantityQuery.Parser.Detector
import QuantityQuery.Parser.Lexical
import QuantityQuery.Parser.Registry
import QuantityQuery.Parser.Request
import QuantityQuery.Proofs.Catalogue.Basic
import QuantityQuery.Proofs.Catalogue.Json
import QuantityQuery.Proofs.Catalogue.Reordering
import QuantityQuery.Proofs.Catalogue.WellFormed
import QuantityQuery.Proofs.Detection.Comparison
import QuantityQuery.Proofs.Detection.Declared
import QuantityQuery.Proofs.Detection.Decoding
import QuantityQuery.Proofs.Detection.Expression
import QuantityQuery.Proofs.Detection.Extension
import QuantityQuery.Proofs.Detection.Longest
import QuantityQuery.Proofs.Detection.Occurrence
import QuantityQuery.Proofs.Detection.Reordering
import QuantityQuery.Proofs.Detection.Scan
import QuantityQuery.Proofs.Detection.Separator
import QuantityQuery.Proofs.Detection.Table
import QuantityQuery.Proofs.Json.Escape
import QuantityQuery.Proofs.Json.Literal
import QuantityQuery.Proofs.Json.Number
import QuantityQuery.Proofs.Json.Record
import QuantityQuery.Proofs.Json.RoundTrip
import QuantityQuery.Proofs.Json.Tree
import QuantityQuery.Proofs.Number.Numeral
import QuantityQuery.Proofs.Number.Order
import QuantityQuery.Proofs.Number.Rounding
import QuantityQuery.Proofs.Number.Shortest
import QuantityQuery.Proofs.Number.Sum
import QuantityQuery.Proofs.Number.Whole
import QuantityQuery.Proofs.Parser.Detector
import QuantityQuery.Proofs.Parser.Found
import QuantityQuery.Proofs.Parser.Outranking
import QuantityQuery.Proofs.Parser.Registry
import QuantityQuery.Proofs.Parser.Styles
import QuantityQuery.Proofs.Parser.Widening
import QuantityQuery.Proofs.Query.Acceptance
import QuantityQuery.Proofs.Query.Asking
import QuantityQuery.Proofs.Query.Boost
import QuantityQuery.Proofs.Query.Bounds
import QuantityQuery.Proofs.Query.Conservation
import QuantityQuery.Proofs.Query.Embedding
import QuantityQuery.Proofs.Query.Exclusion
import QuantityQuery.Proofs.Query.Grammar
import QuantityQuery.Proofs.Query.Grouping
import QuantityQuery.Proofs.Query.Hyphenation
import QuantityQuery.Proofs.Query.Json
import QuantityQuery.Proofs.Query.Key
import QuantityQuery.Proofs.Query.Layers
import QuantityQuery.Proofs.Query.Lexeme
import QuantityQuery.Proofs.Query.Lexer
import QuantityQuery.Proofs.Query.Lexing
import QuantityQuery.Proofs.Query.Linking
import QuantityQuery.Proofs.Query.Node
import QuantityQuery.Proofs.Query.Parsing
import QuantityQuery.Proofs.Query.Point
import QuantityQuery.Proofs.Query.Quoting
import QuantityQuery.Proofs.Query.Requirement
import QuantityQuery.Proofs.Query.Runs
import QuantityQuery.Proofs.Query.Wildcard
import QuantityQuery.Proofs.Search.Columns
import QuantityQuery.Proofs.Search.Combination
import QuantityQuery.Proofs.Search.DocSet
import QuantityQuery.Proofs.Search.Execution
import QuantityQuery.Proofs.Search.History
import QuantityQuery.Proofs.Search.Index
import QuantityQuery.Proofs.Search.Meaning
import QuantityQuery.Proofs.Search.Ranking
import QuantityQuery.Proofs.Search.Score
import QuantityQuery.Proofs.Table
import QuantityQuery.Proofs.Text.Character
import QuantityQuery.Proofs.Text.Quoted
import QuantityQuery.Proofs.Text.Span
import QuantityQuery.Query.Asking
import QuantityQuery.Query.Bounds
import QuantityQuery.Query.Error
import QuantityQuery.Query.Grammar
import QuantityQuery.Query.Json
import QuantityQuery.Query.Lexeme
import QuantityQuery.Query.Lexer
import QuantityQuery.Query.Node
import QuantityQuery.Query.Syntax
import QuantityQuery.Query.Token
import QuantityQuery.Search.Columns
import QuantityQuery.Search.DocSet
import QuantityQuery.Search.Execution
import QuantityQuery.Search.Index
import QuantityQuery.Search.Json
import QuantityQuery.Search.Ranking
import QuantityQuery.Table
import QuantityQuery.Text.Alphabetic
import QuantityQuery.Text.Blank
import QuantityQuery.Text.Character
import QuantityQuery.Text.Invisible
import QuantityQuery.Text.Lowercase
import QuantityQuery.Text.Numeric
import QuantityQuery.Text.Quoted
