import TargetSpans.Text.LetterTable
import TargetSpans.Text.CharClass
import TargetSpans.Text.Lines
import TargetSpans.Text.Pieces
import TargetSpans.Text.Bytes
import TargetSpans.Position
import TargetSpans.Range
import TargetSpans.Document
import TargetSpans.Keyed
import TargetSpans.SyntaxTree
import TargetSpans.Target.Basic
import TargetSpans.Failure
import TargetSpans.Context
import TargetSpans.Scope.Kind
import TargetSpans.Scope.Matcher
import TargetSpans.Scope.Registry
import TargetSpans.Workspace
import TargetSpans.Part
import TargetSpans.Selection.Delimiters
import TargetSpans.Selection.Rows
import TargetSpans.Selection.Expansion
import TargetSpans.Selection.Placement
import TargetSpans.Selection.Join
import TargetSpans.Resolution
import TargetSpans.Json.Value
import TargetSpans.Json.Number
import TargetSpans.Json.Quoted
import TargetSpans.Json.Reader
import TargetSpans.Json.Record
import TargetSpans.Target.Json
import TargetSpans.Toml.Value
import TargetSpans.Toml.Scalar
import TargetSpans.Toml.Quoted
import TargetSpans.Toml.Section
import TargetSpans.Toml.Reader
import TargetSpans.Scope.Config
import TargetSpans.Scope.Builtin
import TargetSpans.Scope.ConfigToml
import TargetSpans.Session
import TargetSpans.Proofs.RangeBounds
import TargetSpans.Proofs.Unions
import TargetSpans.Proofs.LineIndex
import TargetSpans.Proofs.DocumentIndex
import TargetSpans.Proofs.Answer
import TargetSpans.Proofs.Rows
import TargetSpans.Proofs.NodeRanges
import TargetSpans.Proofs.Stages
import TargetSpans.Proofs.LinePartition
import TargetSpans.Proofs.Definedness
import TargetSpans.Proofs.TokenDelimiters
import TargetSpans.Proofs.Widening
import TargetSpans.Proofs.Composition
import TargetSpans.Proofs.Carets
import TargetSpans.Proofs.Words
import TargetSpans.Proofs.WordBoundaries
import TargetSpans.Proofs.Closure
import TargetSpans.Proofs.RangeSymmetry
import TargetSpans.Proofs.Reserved
import TargetSpans.Proofs.Unmodified
import TargetSpans.Proofs.Locality
import TargetSpans.Proofs.JsonFields
import TargetSpans.Proofs.TargetJson
import TargetSpans.Proofs.Layering
import TargetSpans.Proofs.LayerOrder
import TargetSpans.Proofs.PieceRuns
import TargetSpans.Proofs.Separators
import TargetSpans.Proofs.Nesting
import TargetSpans.Proofs.InnermostScope
import TargetSpans.Proofs.SiblingScopes
import TargetSpans.Proofs.Paragraphs
import TargetSpans.Proofs.RowDelimiters
import TargetSpans.Proofs.Regrowing
import TargetSpans.Proofs.SelfRanges
import TargetSpans.Proofs.JoinedExtents
import TargetSpans.Proofs.OneMark
import TargetSpans.Proofs.RangeTexts
import TargetSpans.Proofs.BytePositions
import TargetSpans.Proofs.JoinedWords
import TargetSpans.Proofs.RepeatedWidening
import TargetSpans.Proofs.TargetRoles
import TargetSpans.Proofs.UnknownEntries
import TargetSpans.Proofs.StrictConfig
import TargetSpans.SyntaxProvider
import TargetSpans.Proofs.Sessions
