import CompilerAdapter.Calendar.Date
import CompilerAdapter.Calendar.Reading
import CompilerAdapter.Calendar.Timestamp
import CompilerAdapter.Configuration.Loading
import CompilerAdapter.Diagnostic.Basic
import CompilerAdapter.Diagnostic.Flattening
import CompilerAdapter.Diagnostic.Message
import CompilerAdapter.Diagnostic.Reading
import CompilerAdapter.Document.Basic
import CompilerAdapter.Document.Display
import CompilerAdapter.Document.MemberOrder
import CompilerAdapter.Json.Reader
import CompilerAdapter.Json.Writer
import CompilerAdapter.Number.Basic
import CompilerAdapter.Number.Binary64
import CompilerAdapter.Number.FreeForm
import CompilerAdapter.Number.Shortest
import CompilerAdapter.Path.Components
import CompilerAdapter.Path.Name
import CompilerAdapter.Proofs.Diagnostic.Acceptance
import CompilerAdapter.Proofs.Diagnostic.Documents
import CompilerAdapter.Proofs.Diagnostic.Flattening
import CompilerAdapter.Proofs.Diagnostic.Listing
import CompilerAdapter.Proofs.Diagnostic.Misfits
import CompilerAdapter.Proofs.Diagnostic.Outline
import CompilerAdapter.Proofs.Diagnostic.Places
import CompilerAdapter.Proofs.Diagnostic.ReportLines
import CompilerAdapter.Proofs.Diagnostic.RoundTrip
import CompilerAdapter.Proofs.Diagnostic.Shape
import CompilerAdapter.Proofs.Document.DottedPaths
import CompilerAdapter.Proofs.Document.Fields
import CompilerAdapter.Proofs.Document.Overwriting
import CompilerAdapter.Proofs.Document.Restriction
import CompilerAdapter.Proofs.Json.Content
import CompilerAdapter.Proofs.Json.LongNumerals
import CompilerAdapter.Proofs.Json.Numbers
import CompilerAdapter.Proofs.Json.RoundTrip
import CompilerAdapter.Proofs.Json.Strings
import CompilerAdapter.Proofs.Json.WholeNumbers
import CompilerAdapter.Proofs.Number.Numeral
import CompilerAdapter.Proofs.Number.Value
import CompilerAdapter.Proofs.Path.Ascent
import CompilerAdapter.Proofs.Path.Components
import CompilerAdapter.Proofs.Path.Extensions
import CompilerAdapter.Proofs.Path.LongestExtension
import CompilerAdapter.Proofs.Path.NormalForm
import CompilerAdapter.Proofs.Path.Normalization
import CompilerAdapter.Proofs.Path.Resolution
import CompilerAdapter.Proofs.Path.Slashes
import CompilerAdapter.Proofs.Regex.CaseFolding
import CompilerAdapter.Proofs.Regex.Consuming
import CompilerAdapter.Proofs.Regex.Reading
import CompilerAdapter.Proofs.Registry.Duplicates
import CompilerAdapter.Proofs.Registry.Entries
import CompilerAdapter.Proofs.Registry.Keys
import CompilerAdapter.Proofs.Registry.Loading
import CompilerAdapter.Proofs.Registry.Shape
import CompilerAdapter.Proofs.Registry.Substitution
import CompilerAdapter.Proofs.Schema.Levels
import CompilerAdapter.Proofs.Schema.Records
import CompilerAdapter.Proofs.Schema.Rules
import CompilerAdapter.Proofs.SourceMap.LastSource
import CompilerAdapter.Proofs.SourceMap.Outcomes
import CompilerAdapter.Proofs.Text.Concatenation
import CompilerAdapter.Proofs.Text.JoinedLines
import CompilerAdapter.Proofs.Text.LetterCase
import CompilerAdapter.Proofs.Text.LineBreaks
import CompilerAdapter.Proofs.Text.LineStarts
import CompilerAdapter.Proofs.Text.Markers
import CompilerAdapter.Proofs.Text.Position
import CompilerAdapter.Proofs.Wildcard.Alignment
import CompilerAdapter.Proofs.Wildcard.CaseClosure
import CompilerAdapter.Proofs.Wildcard.DirectoryPrefixes
import CompilerAdapter.Proofs.Wildcard.Inclusion
import CompilerAdapter.Proofs.Wildcard.LeadingRun
import CompilerAdapter.Proofs.Wildcard.Matching
import CompilerAdapter.Proofs.Wildcard.Names
import CompilerAdapter.Proofs.Wildcard.NormalSpecs
import CompilerAdapter.Proofs.Wildcard.PackageDirectories
import CompilerAdapter.Proofs.Wildcard.Sources
import CompilerAdapter.Proofs.Wildcard.SpecLists
import CompilerAdapter.Proofs.Yaml.Places
import CompilerAdapter.References
import CompilerAdapter.Regex.Basic
import CompilerAdapter.Regex.Language
import CompilerAdapter.Regex.Reader
import CompilerAdapter.Registry.Basic
import CompilerAdapter.Schema.Basic
import CompilerAdapter.Schema.Check
import CompilerAdapter.Schema.Violation
import CompilerAdapter.Settings
import CompilerAdapter.SourceMap
import CompilerAdapter.Text.CharacterClass
import CompilerAdapter.Text.Encoding
import CompilerAdapter.Text.LetterCase
import CompilerAdapter.Text.Position
import CompilerAdapter.Text.Quoted
import CompilerAdapter.Wildcard.Pattern
import CompilerAdapter.Yaml.BlockScalar
import CompilerAdapter.Yaml.Cursor
import CompilerAdapter.Yaml.Document
import CompilerAdapter.Yaml.Fault
import CompilerAdapter.Yaml.Graph
import CompilerAdapter.Yaml.Merge
import CompilerAdapter.Yaml.Node
import CompilerAdapter.Yaml.PlainScalar
import CompilerAdapter.Yaml.QuotedScalar
import CompilerAdapter.Yaml.Reader
import CompilerAdapter.Yaml.ScalarValue
import CompilerAdapter.Yaml.Tag
import CompilerAdapter.Yaml.Token
import CompilerAdapter.Yaml.TokenStream
