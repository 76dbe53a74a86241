import ApiModel.ApiOption
import ApiModel.Artifacts
import ApiModel.Build
import ApiModel.ClientSource
import ApiModel.CommandLine
import ApiModel.Config
import ApiModel.ConfigFile
import ApiModel.CrossReference
import ApiModel.Defect
import ApiModel.Descriptor.Basic
import ApiModel.Descriptor.Reader
import ApiModel.Files.Disk
import ApiModel.Files.PathName
import ApiModel.Files.Script
import ApiModel.Filter
import ApiModel.HttpRule
import ApiModel.IdMap
import ApiModel.Json
import ApiModel.Main
import ApiModel.Manifest
import ApiModel.MessageValue
import ApiModel.Model.Api
import ApiModel.Model.Message
import ApiModel.Model.Resource
import ApiModel.Model.Service
import ApiModel.Naming
import ApiModel.Outcome
import ApiModel.Override
import ApiModel.Pagination
import ApiModel.PathTemplate.Basic
import ApiModel.PathTemplate.Parser
import ApiModel.Program
import ApiModel.Proofs.Answer
import ApiModel.Proofs.Build
import ApiModel.Proofs.Builder
import ApiModel.Proofs.ClientSource.Comment
import ApiModel.Proofs.ClientSource.Layout
import ApiModel.Proofs.ClientSource.Literal
import ApiModel.Proofs.ClientSource.Name
import ApiModel.Proofs.ClientSource.Piece
import ApiModel.Proofs.ClientSource.Skeleton
import ApiModel.Proofs.Closed
import ApiModel.Proofs.Consistent
import ApiModel.Proofs.CrossReference.Linked
import ApiModel.Proofs.CrossReference.Message
import ApiModel.Proofs.CrossReference.Pass
import ApiModel.Proofs.CrossReference.Settled
import ApiModel.Proofs.CrossReference.Sites
import ApiModel.Proofs.CrossReference.Stopped
import ApiModel.Proofs.Declared
import ApiModel.Proofs.Documentation.Element
import ApiModel.Proofs.Documentation.Override
import ApiModel.Proofs.Documentation.Successive
import ApiModel.Proofs.Edit
import ApiModel.Proofs.History
import ApiModel.Proofs.HttpRule
import ApiModel.Proofs.Independence.Pages
import ApiModel.Proofs.Independence.Sketch
import ApiModel.Proofs.Independence.SkippedMethod
import ApiModel.Proofs.Independence.Surface
import ApiModel.Proofs.Independence.Traits
import ApiModel.Proofs.Independence.Types
import ApiModel.Proofs.Inventory
import ApiModel.Proofs.Keyed
import ApiModel.Proofs.Labelled
import ApiModel.Proofs.ListMethod
import ApiModel.Proofs.Manifest.Layout
import ApiModel.Proofs.Manifest.Reading
import ApiModel.Proofs.Naming.RoundTrip
import ApiModel.Proofs.Naming.SnakeCase
import ApiModel.Proofs.Outcome
import ApiModel.Proofs.Paged
import ApiModel.Proofs.Paginate
import ApiModel.Proofs.PathTemplate.Pattern
import ApiModel.Proofs.PathTemplate.Reading
import ApiModel.Proofs.PathTemplate.RoundTrip
import ApiModel.Proofs.PathTemplate.Segment
import ApiModel.Proofs.Pipeline
import ApiModel.Proofs.Recursive
import ApiModel.Proofs.Repeat
import ApiModel.Proofs.Resolved
import ApiModel.Proofs.Retouch
import ApiModel.Proofs.Sample
import ApiModel.Proofs.Scan
import ApiModel.Proofs.Schema.Check
import ApiModel.Proofs.Schema.Coherent
import ApiModel.Proofs.Schema.Complete
import ApiModel.Proofs.Schema.Contribution
import ApiModel.Proofs.Schema.Model
import ApiModel.Proofs.Schema.Name
import ApiModel.Proofs.Schema.Nesting
import ApiModel.Proofs.Schema.Outline
import ApiModel.Proofs.Schema.Place
import ApiModel.Proofs.Schema.Reference
import ApiModel.Proofs.Schema.Validity
import ApiModel.Proofs.Schema.WrittenOption
import ApiModel.Proofs.Selected
import ApiModel.Proofs.Selected.Successive
import ApiModel.Proofs.Selection
import ApiModel.Proofs.Shape
import ApiModel.Proofs.Stable
import ApiModel.Proofs.Standard.Carrying
import ApiModel.Proofs.Standard.Kind
import ApiModel.Proofs.Standard.LetterCase
import ApiModel.Proofs.Standard.Preference
import ApiModel.Proofs.Standard.Referring
import ApiModel.Proofs.Standard.Subject
import ApiModel.Proofs.Target
import ApiModel.Proofs.Target.Annotation
import ApiModel.Proofs.Target.Growth
import ApiModel.Proofs.Target.Harvest
import ApiModel.Proofs.Target.Host
import ApiModel.Proofs.Target.Obstacle
import ApiModel.Proofs.Target.Recorded
import ApiModel.Proofs.Target.ResourceName
import ApiModel.Proofs.Target.Strategy
import ApiModel.Proofs.Target.Vocabulary
import ApiModel.Proofs.Validation
import ApiModel.Proofs.Validation.History
import ApiModel.Proofs.Validation.Nesting
import ApiModel.Proofs.Validation.Order
import ApiModel.Proofs.View
import ApiModel.Proofs.Yaml.Block
import ApiModel.Proofs.Yaml.CoreSchema
import ApiModel.Proofs.Yaml.Document
import ApiModel.Proofs.Yaml.Entry
import ApiModel.Proofs.Yaml.FlowList
import ApiModel.Proofs.Yaml.Lexer
import ApiModel.Proofs.Yaml.Lines
import ApiModel.Proofs.Yaml.Parse
import ApiModel.Proofs.Yaml.PlainScalar
import ApiModel.Proofs.Yaml.PlainValue
import ApiModel.Proofs.Yaml.QuotedScalar
import ApiModel.Proofs.Yaml.Record
import ApiModel.Proofs.Yaml.Row
import ApiModel.Recursion
import ApiModel.Sample
import ApiModel.ScalarValue
import ApiModel.Schema.Basic
import ApiModel.Schema.Check
import ApiModel.Schema.Model
import ApiModel.Schema.Name
import ApiModel.Schema.Place
import ApiModel.Schema.StandardOptions
import ApiModel.Schema.WrittenOption
import ApiModel.ServiceConfig
import ApiModel.Specification
import ApiModel.Standard
import ApiModel.Target
import ApiModel.Text.Blank
import ApiModel.Text.Digit
import ApiModel.Text.Letter
import ApiModel.Text.LetterTable
import ApiModel.Text.Line
import ApiModel.Text.Piece
import ApiModel.Text.Printable
import ApiModel.Text.Quoted
import ApiModel.Validation
import ApiModel.View
import ApiModel.ViewDocument
import ApiModel.Wire
import ApiModel.Yaml.Cell
import ApiModel.Yaml.Node
import ApiModel.Yaml.Record
import ApiModel.Yaml.Scalar
import ApiModel.Yaml.Token
