import SourceGen.Analysis
import SourceGen.Buffer.Pool
import SourceGen.Compilation.Basic
import SourceGen.Compilation.Declaration
import SourceGen.Decimal.Rounding
import SourceGen.Decimal.Shortest
import SourceGen.Diagnostic
import SourceGen.Failure
import SourceGen.Generator.Basic
import SourceGen.Generator.Bindable
import SourceGen.Generator.Command
import SourceGen.Generator.Constructor
import SourceGen.Generator.DependencyProperty
import SourceGen.Generator.Endpoints
import SourceGen.Generator.ExtendedEnum
import SourceGen.Generator.FieldAccessor
import SourceGen.Generator.HttpClient
import SourceGen.Generator.Identity
import SourceGen.Generator.Marker
import SourceGen.Generator.Names
import SourceGen.Generator.Phrase
import SourceGen.Generator.PropertyValues
import SourceGen.Generator.Resource
import SourceGen.Generator.Service
import SourceGen.Generator.UnloadOverride
import SourceGen.Json.Fault
import SourceGen.Json.Number
import SourceGen.Json.Record
import SourceGen.Json.Skip
import SourceGen.Json.Token
import SourceGen.Project.Config
import SourceGen.Resource.CompositeFormat
import SourceGen.Resource.Culture
import SourceGen.Resource.Data
import SourceGen.Resource.Entry
import SourceGen.Resource.File
import SourceGen.Resource.Path
import SourceGen.Session.Basic
import SourceGen.Session.Run
import SourceGen.Session.WorkUnit
import SourceGen.Snapshot.Attribute
import SourceGen.Snapshot.Constant
import SourceGen.Snapshot.Member
import SourceGen.Snapshot.Type
import SourceGen.Symbol.Basic
import SourceGen.Symbol.Constant
import SourceGen.Symbol.Display
import SourceGen.Syntax.Expr
import SourceGen.Syntax.Kind
import SourceGen.Syntax.Layout
import SourceGen.Syntax.Literal
import SourceGen.Syntax.Member
import SourceGen.Syntax.Modifier
import SourceGen.Syntax.Signature
import SourceGen.Syntax.Token
import SourceGen.Syntax.Tree
import SourceGen.Syntax.Trivia
import SourceGen.Syntax.TypeExpr
import SourceGen.Text.Category
import SourceGen.Text.Csv
import SourceGen.Text.Identifier
import SourceGen.Text.Lowercase
import SourceGen.Text.Markup
import SourceGen.Text.Quoted
import SourceGen.Text.Trim
import SourceGen.Text.Utf8
import SourceGen.Xml.Event
import SourceGen.Session.Cancellation
import SourceGen.Session.FileStore
import SourceGen.Session.Memo
import SourceGen.Proofs.Session.AssemblyName
import SourceGen.Proofs.Session.Atomicity
import SourceGen.Proofs.Session.Incremental
import SourceGen.Proofs.Order.Run
import SourceGen.Proofs.Session.Stopped
import SourceGen.Proofs.Session.Duplicates
import SourceGen.Proofs.Resource.CompositeFormat
import SourceGen.Proofs.Order.Resources
import SourceGen.Proofs.Resource.Elements
import SourceGen.Proofs.Syntax.Rendering
import SourceGen.Proofs.Syntax.Lines
import SourceGen.Proofs.Syntax.Literals
import SourceGen.Proofs.Syntax.Lexing
import SourceGen.Proofs.Syntax.Lexeme
import SourceGen.Proofs.Syntax.Terminators
import SourceGen.Proofs.Syntax.TypeText
import SourceGen.Proofs.Symbol.FullName
import SourceGen.Proofs.Analysis.Findings
import SourceGen.Proofs.Syntax.Signature
import SourceGen.Proofs.Syntax.Slices
import SourceGen.Proofs.Compilation.Written
import SourceGen.Proofs.Analysis.Declarations
import SourceGen.Proofs.Syntax.Reading
import SourceGen.Proofs.Syntax.Operators
import SourceGen.Proofs.Resource.Culture
import SourceGen.Proofs.Syntax.Accepted
import SourceGen.Proofs.Text.Csv
import SourceGen.Proofs.Syntax.Members
import SourceGen.Proofs.Generator.Endpoints
import SourceGen.Proofs.Resource.Path
import SourceGen.Proofs.Resource.Names
import SourceGen.Proofs.Generator.Resource
import SourceGen.Proofs.Text.LineEnds
import SourceGen.Proofs.Xml.Fragment
import SourceGen.Proofs.Generator.Documentation
import SourceGen.Proofs.Syntax.Evaluation
import SourceGen.Proofs.Snapshot.Constant
import SourceGen.Proofs.Snapshot.Spelling
import SourceGen.Proofs.Snapshot.Attribute
import SourceGen.Proofs.Symbol.Annotation
import SourceGen.Proofs.Generator.Service
import SourceGen.Proofs.Generator.Constructor
import SourceGen.Proofs.Generator.Command
import SourceGen.Proofs.Generator.Bindable
import SourceGen.Proofs.Generator.PropertyValues
import SourceGen.Proofs.Snapshot.Hierarchy
import SourceGen.Proofs.Symbol.Interfaces
import SourceGen.Proofs.Syntax.Braces
import SourceGen.Proofs.Syntax.Depth
import SourceGen.Proofs.Syntax.Indentation
import SourceGen.Proofs.Symbol.MetadataName
import SourceGen.Proofs.Text.Identifier
import SourceGen.Proofs.Diagnostic
import SourceGen.Proofs.Buffer.Calls
