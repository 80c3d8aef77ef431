import CollectionSchema.CommandLine.Arguments
import CollectionSchema.CommandLine.Run
import CollectionSchema.Diagnostic
import CollectionSchema.Files.Disk
import CollectionSchema.Files.Tree
import CollectionSchema.Grammar.Declaration
import CollectionSchema.Grammar.Expression
import CollectionSchema.Grammar.Furthest
import CollectionSchema.Grammar.Miss
import CollectionSchema.Grammar.Recognizer
import CollectionSchema.Grammar.Rule
import CollectionSchema.Grammar.Session
import CollectionSchema.Grammar.Statement
import CollectionSchema.Grammar.Type
import CollectionSchema.Json.Conform
import CollectionSchema.Json.Failure
import CollectionSchema.Json.Numeral
import CollectionSchema.Json.Printer
import CollectionSchema.Json.Reader
import CollectionSchema.Json.Reading
import CollectionSchema.Json.Shape
import CollectionSchema.Json.Value
import CollectionSchema.Log.Directive
import CollectionSchema.Log.Event
import CollectionSchema.Log.Filter
import CollectionSchema.Log.ValuePattern
import CollectionSchema.Main
import CollectionSchema.Metadata.Decode
import CollectionSchema.Metadata.Encode
import CollectionSchema.Metadata.Model
import CollectionSchema.Metadata.Shape
import CollectionSchema.Proofs.AbsentArms
import CollectionSchema.Proofs.BrokenCall
import CollectionSchema.Proofs.Concatenation
import CollectionSchema.Proofs.Conservation
import CollectionSchema.Proofs.Diagnostic
import CollectionSchema.Proofs.ErrorExpectations
import CollectionSchema.Proofs.ErrorItem
import CollectionSchema.Proofs.ErrorLocation
import CollectionSchema.Proofs.Exchange
import CollectionSchema.Proofs.FailureReport
import CollectionSchema.Proofs.Files.Directory
import CollectionSchema.Proofs.FunctionWord
import CollectionSchema.Proofs.FurthestFailure
import CollectionSchema.Proofs.IntegerLiteral
import CollectionSchema.Proofs.JoinedText
import CollectionSchema.Proofs.Json.Acceptance
import CollectionSchema.Proofs.Json.Canonical
import CollectionSchema.Proofs.Json.Canonicity
import CollectionSchema.Proofs.Json.Compatibility
import CollectionSchema.Proofs.Json.Edit
import CollectionSchema.Proofs.Json.Faultless
import CollectionSchema.Proofs.Json.Inversion
import CollectionSchema.Proofs.Json.Layout
import CollectionSchema.Proofs.Json.Meaning
import CollectionSchema.Proofs.Json.Members
import CollectionSchema.Proofs.Json.Numeral
import CollectionSchema.Proofs.Json.Range
import CollectionSchema.Proofs.Json.RoundTrip
import CollectionSchema.Proofs.Json.Text
import CollectionSchema.Proofs.Metadata.Canonical
import CollectionSchema.Proofs.MetadataCompatibility
import CollectionSchema.Proofs.MetadataRoundTrip
import CollectionSchema.Proofs.NameExchange
import CollectionSchema.Proofs.NumberError
import CollectionSchema.Proofs.Peg.Alternatives
import CollectionSchema.Proofs.Peg.Argument
import CollectionSchema.Proofs.Peg.Completion
import CollectionSchema.Proofs.Peg.Composition
import CollectionSchema.Proofs.Peg.Conformance
import CollectionSchema.Proofs.Peg.Coverage
import CollectionSchema.Proofs.Peg.Echo
import CollectionSchema.Proofs.Peg.Execution
import CollectionSchema.Proofs.Peg.Follow
import CollectionSchema.Proofs.Peg.Inversion
import CollectionSchema.Proofs.Peg.Keeping
import CollectionSchema.Proofs.Peg.LetName
import CollectionSchema.Proofs.Peg.Locality
import CollectionSchema.Proofs.Peg.Making
import CollectionSchema.Proofs.Peg.Moment
import CollectionSchema.Proofs.Peg.NameKeeping
import CollectionSchema.Proofs.Peg.Names
import CollectionSchema.Proofs.Peg.Neighbours
import CollectionSchema.Proofs.Peg.Nesting
import CollectionSchema.Proofs.Peg.Normative
import CollectionSchema.Proofs.Peg.Numeral
import CollectionSchema.Proofs.Peg.Occurrence
import CollectionSchema.Proofs.Peg.Offer
import CollectionSchema.Proofs.Peg.Phrase
import CollectionSchema.Proofs.Peg.Reading
import CollectionSchema.Proofs.Peg.Relocation
import CollectionSchema.Proofs.Peg.Reply
import CollectionSchema.Proofs.Peg.Report
import CollectionSchema.Proofs.Peg.Rule
import CollectionSchema.Proofs.Peg.Run
import CollectionSchema.Proofs.Peg.Sealed
import CollectionSchema.Proofs.Peg.SealedItem
import CollectionSchema.Proofs.Peg.Surroundings
import CollectionSchema.Proofs.Peg.Terminal
import CollectionSchema.Proofs.Peg.TypeReading
import CollectionSchema.Proofs.Peg.Variation
import CollectionSchema.Proofs.Peg.Yield
import CollectionSchema.Proofs.PlaceIndependence
import CollectionSchema.Proofs.Placement
import CollectionSchema.Proofs.Regex
import CollectionSchema.Proofs.RegularPrograms
import CollectionSchema.Proofs.Relocation
import CollectionSchema.Proofs.RepeatedParse
import CollectionSchema.Proofs.Rule.Algebra
import CollectionSchema.Proofs.Rule.FixedPoint
import CollectionSchema.Proofs.Session
import CollectionSchema.Proofs.SettledSession
import CollectionSchema.Proofs.Syntax.Bare
import CollectionSchema.Proofs.Syntax.Canonical.Expression
import CollectionSchema.Proofs.Syntax.Canonical.Program
import CollectionSchema.Proofs.Syntax.Canonical.Statement
import CollectionSchema.Proofs.Syntax.Canonical.Type
import CollectionSchema.Proofs.Syntax.OneName
import CollectionSchema.Proofs.Syntax.Range
import CollectionSchema.Proofs.Syntax.Regular
import CollectionSchema.Proofs.Syntax.Relocation
import CollectionSchema.Proofs.Syntax.Tree
import CollectionSchema.Proofs.Syntax.Yield
import CollectionSchema.Proofs.SyntaxRoundTrip
import CollectionSchema.Proofs.Termination
import CollectionSchema.Proofs.Text.Lines
import CollectionSchema.Proofs.Text.Order
import CollectionSchema.Proofs.Text.Position
import CollectionSchema.Proofs.Token.Expressions
import CollectionSchema.Proofs.Token.Joining
import CollectionSchema.Proofs.Token.Lexeme
import CollectionSchema.Proofs.Token.Lexing
import CollectionSchema.Proofs.Token.Lossless
import CollectionSchema.Proofs.Token.Pattern
import CollectionSchema.Proofs.Token.Protocol
import CollectionSchema.Proofs.Token.Scanning
import CollectionSchema.Proofs.Token.Spacing
import CollectionSchema.Proofs.Token.Standing
import CollectionSchema.Proofs.TypeText
import CollectionSchema.SchemaError
import CollectionSchema.Source
import CollectionSchema.Syntax.Decode
import CollectionSchema.Syntax.Encode
import CollectionSchema.Syntax.Expression
import CollectionSchema.Syntax.Operator
import CollectionSchema.Syntax.Outline
import CollectionSchema.Syntax.Program
import CollectionSchema.Syntax.Shape
import CollectionSchema.Syntax.Statement
import CollectionSchema.Syntax.Type
import CollectionSchema.Syntax.Word
import CollectionSchema.SyntaxError
import CollectionSchema.Text.Blank
import CollectionSchema.Text.Decimal
import CollectionSchema.Text.Escape
import CollectionSchema.Text.Hexadecimal
import CollectionSchema.Text.Letter
import CollectionSchema.Text.Lines
import CollectionSchema.Text.Outline
import CollectionSchema.Text.Position
import CollectionSchema.Text.Unprintable
import CollectionSchema.Token.Basic
import CollectionSchema.Token.Keyword
import CollectionSchema.Token.Pattern
import CollectionSchema.Token.Stream
