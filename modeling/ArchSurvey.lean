import ArchSurvey.Catalog.Basic
import ArchSurvey.CommandLine.Arguments
import ArchSurvey.CommandLine.Documents
import ArchSurvey.CommandLine.Request
import ArchSurvey.CommandLine.Run
import ArchSurvey.Config.Basic
import ArchSurvey.Config.Load
import ArchSurvey.Console.Report
import ArchSurvey.Decimal.Binary64
import ArchSurvey.Declaration.Note
import ArchSurvey.Declaration.Reader
import ArchSurvey.Diagram.Components
import ArchSurvey.Diagram.Document
import ArchSurvey.Diagram.Entities
import ArchSurvey.Diagram.Generator
import ArchSurvey.Diagram.Graph
import ArchSurvey.Diagram.Label
import ArchSurvey.Digest.Sha256
import ArchSurvey.Disk.Access
import ArchSurvey.Disk.Basic
import ArchSurvey.Disk.Path
import ArchSurvey.Entity.Mapped
import ArchSurvey.Finding.Basic
import ArchSurvey.Finding.Codec
import ArchSurvey.Finding.Identity
import ArchSurvey.Glob.Basic
import ArchSurvey.Grammar.Go
import ArchSurvey.Grammar.Java
import ArchSurvey.Grammar.Lexis
import ArchSurvey.Grammar.Occurrence
import ArchSurvey.Grammar.Parse
import ArchSurvey.Grammar.Python
import ArchSurvey.Grammar.Query
import ArchSurvey.Grammar.Script.Basic
import ArchSurvey.Grammar.Script.Expressions
import ArchSurvey.Grammar.Script.Statements
import ArchSurvey.Grammar.Structural
import ArchSurvey.Grammar.Tree
import ArchSurvey.Json.Basic
import ArchSurvey.Json.Decode
import ArchSurvey.Json.Printer
import ArchSurvey.Json.Reader
import ArchSurvey.Keyed
import ArchSurvey.Main
import ArchSurvey.Manifest.GoModule
import ArchSurvey.Manifest.PackageJson
import ArchSurvey.Manifest.Pom
import ArchSurvey.Manifest.PythonPackages
import ArchSurvey.Manifest.Requirement
import ArchSurvey.Manifest.TableFile
import ArchSurvey.Messaging.Topic
import ArchSurvey.Model.Basic
import ArchSurvey.Model.Codec
import ArchSurvey.Model.Quality
import ArchSurvey.Project.Parts
import ArchSurvey.Proofs.Catalog.Cells
import ArchSurvey.Proofs.Catalog.Groups
import ArchSurvey.Proofs.Catalog.Pages
import ArchSurvey.Proofs.Catalog.Sections
import ArchSurvey.Proofs.CommandLine.Configuration
import ArchSurvey.Proofs.CommandLine.Deadline
import ArchSurvey.Proofs.CommandLine.Documents
import ArchSurvey.Proofs.CommandLine.Rescan
import ArchSurvey.Proofs.CommandLine.Saved
import ArchSurvey.Proofs.Config.Check
import ArchSurvey.Proofs.Declaration.Arguments
import ArchSurvey.Proofs.Declaration.Attributes
import ArchSurvey.Proofs.Declaration.Bodies
import ArchSurvey.Proofs.Declaration.Heading
import ArchSurvey.Proofs.Declaration.Layout
import ArchSurvey.Proofs.Declaration.Revision
import ArchSurvey.Proofs.Declaration.Tokens
import ArchSurvey.Proofs.Declaration.Value
import ArchSurvey.Proofs.Diagram.Edges
import ArchSurvey.Proofs.Diagram.Elements
import ArchSurvey.Proofs.Diagram.Frames
import ArchSurvey.Proofs.Diagram.Generator
import ArchSurvey.Proofs.Diagram.Graphs
import ArchSurvey.Proofs.Diagram.Lines
import ArchSurvey.Proofs.Diagram.Names
import ArchSurvey.Proofs.Diagram.References
import ArchSurvey.Proofs.Disk.Additions
import ArchSurvey.Proofs.Disk.Lookup
import ArchSurvey.Proofs.Disk.Path
import ArchSurvey.Proofs.Disk.Removal
import ArchSurvey.Proofs.Disk.Walk
import ArchSurvey.Proofs.Disk.Writing
import ArchSurvey.Proofs.Entity.Nesting
import ArchSurvey.Proofs.Finding.Codec
import ArchSurvey.Proofs.Glob.Ending
import ArchSurvey.Proofs.Json.Layout
import ArchSurvey.Proofs.Json.Omission
import ArchSurvey.Proofs.Keyed
import ArchSurvey.Proofs.Lists
import ArchSurvey.Proofs.Manifest.ArrayComments
import ArchSurvey.Proofs.Manifest.ArrayLayout
import ArchSurvey.Proofs.Manifest.DirectiveRows
import ArchSurvey.Proofs.Manifest.Directives
import ArchSurvey.Proofs.Manifest.Markup
import ArchSurvey.Proofs.Manifest.Placeholders
import ArchSurvey.Proofs.Manifest.Quotation
import ArchSurvey.Proofs.Manifest.RequirementFile
import ArchSurvey.Proofs.Manifest.RequirementPattern
import ArchSurvey.Proofs.Manifest.RequirementText
import ArchSurvey.Proofs.Manifest.Sections
import ArchSurvey.Proofs.Model.FirstByKey
import ArchSurvey.Proofs.Model.Merge
import ArchSurvey.Proofs.Model.Owners
import ArchSurvey.Proofs.Model.Quality
import ArchSurvey.Proofs.Route.Groups
import ArchSurvey.Proofs.Route.Nesting
import ArchSurvey.Proofs.Scan.Checkout
import ArchSurvey.Proofs.Scan.Decision
import ArchSurvey.Proofs.Scan.Discovery
import ArchSurvey.Proofs.Scan.Index
import ArchSurvey.Proofs.Scan.Methods
import ArchSurvey.Proofs.Scan.Records
import ArchSurvey.Proofs.Scan.Relocation
import ArchSurvey.Proofs.Scan.Removal
import ArchSurvey.Proofs.Scan.Session
import ArchSurvey.Proofs.Scan.Sources
import ArchSurvey.Proofs.Scan.Workers
import ArchSurvey.Proofs.Schema.Changes
import ArchSurvey.Proofs.Schema.Clauses
import ArchSurvey.Proofs.Schema.Columns
import ArchSurvey.Proofs.Schema.Comments
import ArchSurvey.Proofs.Schema.Conditional
import ArchSurvey.Proofs.Schema.Constraints
import ArchSurvey.Proofs.Schema.KeyColumns
import ArchSurvey.Proofs.Schema.LetterCase
import ArchSurvey.Proofs.Schema.Nesting
import ArchSurvey.Proofs.Schema.Notation
import ArchSurvey.Proofs.Schema.Order
import ArchSurvey.Proofs.Schema.Replay
import ArchSurvey.Proofs.Schema.Script
import ArchSurvey.Proofs.Schema.Sentences
import ArchSurvey.Proofs.Schema.Tables
import ArchSurvey.Proofs.Schema.Tokens
import ArchSurvey.Proofs.Schema.Types
import ArchSurvey.Proofs.Statistics.Sums
import ArchSurvey.Proofs.Survey.Closure
import ArchSurvey.Proofs.Survey.Codec
import ArchSurvey.Proofs.Survey.Mailboxes
import ArchSurvey.Proofs.Survey.Methods
import ArchSurvey.Proofs.Survey.Newcomer
import ArchSurvey.Proofs.Survey.Owners
import ArchSurvey.Proofs.Survey.Plan
import ArchSurvey.Proofs.Survey.Project
import ArchSurvey.Proofs.Survey.Ran
import ArchSurvey.Proofs.Survey.Relocation
import ArchSurvey.Proofs.Survey.Repetition
import ArchSurvey.Proofs.Survey.Run
import ArchSurvey.Proofs.Survey.Selection
import ArchSurvey.Proofs.Survey.Sequence
import ArchSurvey.Proofs.Text.Blank
import ArchSurvey.Proofs.Text.Image
import ArchSurvey.Proofs.Text.Lines
import ArchSurvey.Proofs.Text.Occurrences
import ArchSurvey.Proofs.Text.Pattern
import ArchSurvey.Proofs.Text.Split
import ArchSurvey.Proofs.Text.Tail
import ArchSurvey.Proofs.Text.Utf8
import ArchSurvey.Route.Call
import ArchSurvey.Route.Controller
import ArchSurvey.Route.Decorated
import ArchSurvey.Route.Grouped
import ArchSurvey.Route.Offer
import ArchSurvey.Scan.Applicability
import ArchSurvey.Scan.Context
import ArchSurvey.Scan.Groups
import ArchSurvey.Scan.Index
import ArchSurvey.Scan.Listing
import ArchSurvey.Scan.Registry
import ArchSurvey.Scan.Result
import ArchSurvey.Scan.Scanner
import ArchSurvey.Scan.Tiers
import ArchSurvey.Schema.Migrations
import ArchSurvey.Schema.Nesting
import ArchSurvey.Schema.Reader
import ArchSurvey.Schema.Replay
import ArchSurvey.Schema.Statement
import ArchSurvey.Source.Path
import ArchSurvey.Statistics.Basic
import ArchSurvey.Survey.Builtin
import ArchSurvey.Survey.Load
import ArchSurvey.Survey.Project
import ArchSurvey.Survey.Report
import ArchSurvey.Survey.Run
import ArchSurvey.Text.CaseTable
import ArchSurvey.Text.ClassTable
import ArchSurvey.Text.LetterCase
import ArchSurvey.Text.Pattern
import ArchSurvey.Text.Split
import ArchSurvey.Text.Utf8
import ArchSurvey.Yaml.Basic
import ArchSurvey.Yaml.Printer
import ArchSurvey.Yaml.Reader
import ArchSurvey.Yaml.Scalar
import ArchSurvey.Yaml.Value
