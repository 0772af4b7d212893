import SchemaTypings.Batch
import SchemaTypings.Catalog
import SchemaTypings.CommandLine.Arguments
import SchemaTypings.CommandLine.Help
import SchemaTypings.CommandLine.Report
import SchemaTypings.CommandLine.Run
import SchemaTypings.CommandLine.Session
import SchemaTypings.CommandLine.Switch
import SchemaTypings.Console
import SchemaTypings.Console.Cells
import SchemaTypings.Console.Colour
import SchemaTypings.Console.Flag
import SchemaTypings.Console.Handler
import SchemaTypings.Console.Markup
import SchemaTypings.Console.Pictures
import SchemaTypings.Console.Shortcode
import SchemaTypings.Console.Style
import SchemaTypings.Console.Table
import SchemaTypings.Console.Wrap
import SchemaTypings.Declaration.Extract
import SchemaTypings.Declaration.Header
import SchemaTypings.Declaration.Raw
import SchemaTypings.Declaration.Reader
import SchemaTypings.Dictionary
import SchemaTypings.Entries
import SchemaTypings.Error
import SchemaTypings.Field
import SchemaTypings.Field.Build
import SchemaTypings.Field.Materialize
import SchemaTypings.Files.Models
import SchemaTypings.Files.Output
import SchemaTypings.Files.Tree
import SchemaTypings.Generator
import SchemaTypings.Interface
import SchemaTypings.Interface.Mapping
import SchemaTypings.Interface.Name
import SchemaTypings.Interface.Printer
import SchemaTypings.InterfaceNames
import SchemaTypings.Json.Printer
import SchemaTypings.Json.Reader
import SchemaTypings.Layout
import SchemaTypings.Literal
import SchemaTypings.Literal.Display
import SchemaTypings.Literal.Parser
import SchemaTypings.Literal.Printer
import SchemaTypings.Log
import SchemaTypings.Log.Setup
import SchemaTypings.Main
import SchemaTypings.Malformed
import SchemaTypings.Number.Binary64
import SchemaTypings.Number.Integer
import SchemaTypings.Number.Shortest
import SchemaTypings.PathName
import SchemaTypings.Proofs.Aborting
import SchemaTypings.Proofs.Acceptance
import SchemaTypings.Proofs.Advancing
import SchemaTypings.Proofs.Arguments
import SchemaTypings.Proofs.Balancing
import SchemaTypings.Proofs.Binding
import SchemaTypings.Proofs.Brackets
import SchemaTypings.Proofs.Canonical
import SchemaTypings.Proofs.CaseStyles
import SchemaTypings.Proofs.Cataloguing
import SchemaTypings.Proofs.Causes
import SchemaTypings.Proofs.Combining
import SchemaTypings.Proofs.Comments
import SchemaTypings.Proofs.Converting
import SchemaTypings.Proofs.Cutting
import SchemaTypings.Proofs.Decimals
import SchemaTypings.Proofs.Declaring
import SchemaTypings.Proofs.Decoding
import SchemaTypings.Proofs.Delimiting
import SchemaTypings.Proofs.Digits
import SchemaTypings.Proofs.Discovering
import SchemaTypings.Proofs.Enclosing
import SchemaTypings.Proofs.Encoding
import SchemaTypings.Proofs.Enumerations
import SchemaTypings.Proofs.Equality
import SchemaTypings.Proofs.Escapes
import SchemaTypings.Proofs.Extraction
import SchemaTypings.Proofs.Failures
import SchemaTypings.Proofs.Faithful
import SchemaTypings.Proofs.Fields
import SchemaTypings.Proofs.FileNames
import SchemaTypings.Proofs.Generating
import SchemaTypings.Proofs.Generics
import SchemaTypings.Proofs.Grammar
import SchemaTypings.Proofs.HeaderTokens
import SchemaTypings.Proofs.Headers
import SchemaTypings.Proofs.Idempotence
import SchemaTypings.Proofs.Importing
import SchemaTypings.Proofs.Indenting
import SchemaTypings.Proofs.Independence
import SchemaTypings.Proofs.Indexing
import SchemaTypings.Proofs.JoinedLines
import SchemaTypings.Proofs.JsonText
import SchemaTypings.Proofs.Leniency
import SchemaTypings.Proofs.LexedParts
import SchemaTypings.Proofs.Lexing
import SchemaTypings.Proofs.Lines
import SchemaTypings.Proofs.Locality
import SchemaTypings.Proofs.Locating
import SchemaTypings.Proofs.LowerCase
import SchemaTypings.Proofs.Mapping
import SchemaTypings.Proofs.ModelNames
import SchemaTypings.Proofs.MovedTokens
import SchemaTypings.Proofs.Nesting
import SchemaTypings.Proofs.Nodes
import SchemaTypings.Proofs.Numbers
import SchemaTypings.Proofs.Options
import SchemaTypings.Proofs.Outcomes
import SchemaTypings.Proofs.Pairing
import SchemaTypings.Proofs.PascalCase
import SchemaTypings.Proofs.Placement
import SchemaTypings.Proofs.Positions
import SchemaTypings.Proofs.Precedence
import SchemaTypings.Proofs.PropertyNames
import SchemaTypings.Proofs.Quoting
import SchemaTypings.Proofs.ReaderSteps
import SchemaTypings.Proofs.Reading
import SchemaTypings.Proofs.References
import SchemaTypings.Proofs.Refusals
import SchemaTypings.Proofs.Registering
import SchemaTypings.Proofs.Rendering
import SchemaTypings.Proofs.RepeatedKeys
import SchemaTypings.Proofs.Repeating
import SchemaTypings.Proofs.Rereading
import SchemaTypings.Proofs.Rerunning
import SchemaTypings.Proofs.Resuming
import SchemaTypings.Proofs.Rounding
import SchemaTypings.Proofs.Saving
import SchemaTypings.Proofs.SettingsEntries
import SchemaTypings.Proofs.Shapes
import SchemaTypings.Proofs.Skipping
import SchemaTypings.Proofs.Spacing
import SchemaTypings.Proofs.Spans
import SchemaTypings.Proofs.Spelling
import SchemaTypings.Proofs.Syntax
import SchemaTypings.Proofs.Tidying
import SchemaTypings.Proofs.TokenPositions
import SchemaTypings.Proofs.Totality
import SchemaTypings.Proofs.Transcoding
import SchemaTypings.Proofs.TreeChanges
import SchemaTypings.Proofs.TreeGrowth
import SchemaTypings.Proofs.TypeArguments
import SchemaTypings.Proofs.Types
import SchemaTypings.Proofs.Unambiguity
import SchemaTypings.Proofs.Uniqueness
import SchemaTypings.Proofs.Validators
import SchemaTypings.Proofs.Values
import SchemaTypings.Proofs.Verbatim
import SchemaTypings.Proofs.Wrapping
import SchemaTypings.Proofs.Writing
import SchemaTypings.Settings
import SchemaTypings.Settings.Store
import SchemaTypings.Template
import SchemaTypings.Text.Blank
import SchemaTypings.Text.Case
import SchemaTypings.Text.Casing
import SchemaTypings.Text.CodePoint
import SchemaTypings.Text.Digit
import SchemaTypings.Text.Edges
import SchemaTypings.Text.Identifier
import SchemaTypings.Text.Position
import SchemaTypings.Text.Printable
import SchemaTypings.Text.Quoted
import SchemaTypings.Text.Utf8
import SchemaTypings.Text.Word
import SchemaTypings.Token
import SchemaTypings.Token.Lexer
import SchemaTypings.Token.NumberLiteral
import SchemaTypings.Token.RegexLiteral
import SchemaTypings.Token.StringLiteral
import SchemaTypings.Token.TemplateLiteral
