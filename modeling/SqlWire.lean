import SqlWire.Calendar.Date
import SqlWire.Calendar.Reading
import SqlWire.Calendar.Zone
import SqlWire.Column.Basic
import SqlWire.Column.Kind
import SqlWire.Column.TypeName
import SqlWire.CommandLine.Arguments
import SqlWire.CommandLine.Report
import SqlWire.CommandLine.Run
import SqlWire.CommandLine.Workspace
import SqlWire.Failure
import SqlWire.Main
import SqlWire.Number.Decimal
import SqlWire.Number.FloatText
import SqlWire.Number.Digits
import SqlWire.Number.Numeral
import SqlWire.Number.Shortest
import SqlWire.Param.Basic
import SqlWire.Param.Coerce
import SqlWire.Param.Infer
import SqlWire.Rows.Accessor
import SqlWire.Rows.Cursor
import SqlWire.Rows.Lines
import SqlWire.Rows.Row
import SqlWire.Script.Analysis
import SqlWire.Script.Binding
import SqlWire.Script.Lexeme
import SqlWire.Script.Segment
import SqlWire.Script.Statement
import SqlWire.Script.Target
import SqlWire.Settings
import SqlWire.Text.Alphanumeric
import SqlWire.Text.Basic
import SqlWire.Text.Blank
import SqlWire.Text.Escape
import SqlWire.Text.Folding
import SqlWire.Text.Ranges
import SqlWire.Text.Shown
import SqlWire.Text.Utf8
import SqlWire.Toml.Basic
import SqlWire.Toml.Document
import SqlWire.Toml.Scalar
import SqlWire.Value.Basic
import SqlWire.Value.Decode
import SqlWire.Value.Fault
import SqlWire.Value.Json
import SqlWire.Value.Literal
import SqlWire.Wire.Block
import SqlWire.Wire.BlockReader
import SqlWire.Wire.BlockWriter
import SqlWire.Wire.Compress
import SqlWire.Wire.Digest
import SqlWire.Wire.Lz4
import SqlWire.Wire.Source
import SqlWire.Proofs.Lexis
import SqlWire.Proofs.NumeralText
import SqlWire.Proofs.DecimalText
import SqlWire.Proofs.CalendarText
import SqlWire.Proofs.QuotedText
import SqlWire.Proofs.ReadBack
import SqlWire.Proofs.Cleaning
import SqlWire.Proofs.Substitution
import SqlWire.Proofs.LiteralLexis
import SqlWire.Proofs.Rescan
import SqlWire.Proofs.Lz4Expansion
import SqlWire.Proofs.Lz4Compression
import SqlWire.Proofs.BlockFraming
import SqlWire.Proofs.StreamWriting
import SqlWire.Proofs.StreamReading
import SqlWire.Proofs.StreamRoundTrip
import SqlWire.Proofs.StreamDecoding
import SqlWire.Proofs.WriteFailures
import SqlWire.Proofs.LineReading
import SqlWire.Proofs.CursorAgreement
import SqlWire.Proofs.Splitting
import SqlWire.Proofs.CursorStages
import SqlWire.Proofs.RowReading
import SqlWire.Proofs.ScriptBinding
import SqlWire.Proofs.TableReading
import SqlWire.Proofs.Utf8Text
import SqlWire.Proofs.FailedBodies
import SqlWire.Proofs.ReaderFailures
import SqlWire.Proofs.Corruption
import SqlWire.Proofs.Idempotence
import SqlWire.Proofs.Outcomes
import SqlWire.Proofs.TypeSoundness
import SqlWire.Proofs.Emissions
import SqlWire.Proofs.InertText
import SqlWire.Proofs.RawBinding
import SqlWire.Proofs.Lz4Size
import SqlWire.Proofs.SettingsAgreement
import SqlWire.Proofs.BlockSizes
import SqlWire.Proofs.DigestReads
import SqlWire.Proofs.LiteralGrammar
import SqlWire.Proofs.DecimalGrammar
import SqlWire.Proofs.PlainNotation
import SqlWire.Proofs.WholeDecimals
import SqlWire.Proofs.Coercion
import SqlWire.Proofs.TextCells
import SqlWire.Proofs.CellPrinting
import SqlWire.Proofs.TypeGrammar
import SqlWire.Proofs.TypeReading
import SqlWire.Proofs.TypeNames
import SqlWire.Proofs.TypeWrappers
import SqlWire.Proofs.TypeSpacing
import SqlWire.Proofs.TypeCase
import SqlWire.Proofs.CalendarGrammar
import SqlWire.Proofs.StampReading
import SqlWire.Proofs.Instants
import SqlWire.Proofs.OffsetGrammar
import SqlWire.Proofs.OffsetReading
import SqlWire.Proofs.ZonedStamps
import SqlWire.Proofs.Accessors
import SqlWire.Proofs.Nullness
import SqlWire.Proofs.KeywordSearch
import SqlWire.Proofs.QueryTargets
import SqlWire.Proofs.SetValues
import SqlWire.Proofs.WordSearch
import SqlWire.Proofs.DoubleRounding
import SqlWire.Proofs.ShortestDigits
import SqlWire.Proofs.IntegerBinding
