import DepGraph.Command.Arguments
import DepGraph.Command.Basic
import DepGraph.Command.Run
import DepGraph.Command.Screen
import DepGraph.Containment.Basic
import DepGraph.Containment.Collapse
import DepGraph.Decimal.Binary
import DepGraph.Decimal.Integer
import DepGraph.Diagram
import DepGraph.Discovery
import DepGraph.Export.Data
import DepGraph.Export.Dgml
import DepGraph.Export.Dot
import DepGraph.Export.Format
import DepGraph.Export.Page
import DepGraph.Failure
import DepGraph.Filter
import DepGraph.Graph.Cycle
import DepGraph.Graph.Dependencies
import DepGraph.Graph.Name
import DepGraph.Graph.Shorten
import DepGraph.Json.Basic
import DepGraph.Json.Checked
import DepGraph.Json.Literal
import DepGraph.Json.Reader
import DepGraph.Json.Writer
import DepGraph.Language.Basic
import DepGraph.Language.Include
import DepGraph.Language.Module
import DepGraph.Language.Package
import DepGraph.Language.Python
import DepGraph.Language.Raw
import DepGraph.Language.Script
import DepGraph.Language.Source
import DepGraph.Main
import DepGraph.OrderedMap
import DepGraph.Path.Basic
import DepGraph.Path.Normal
import DepGraph.Path.Resolution
import DepGraph.Pattern.Basic
import DepGraph.Pattern.CharTest
import DepGraph.Pattern.Error
import DepGraph.Pattern.Escape
import DepGraph.Pattern.Matcher
import DepGraph.Pattern.Reader
import DepGraph.Pattern.Token
import DepGraph.Progress
import DepGraph.Proofs.Attempt
import DepGraph.Proofs.Command.Precedence
import DepGraph.Proofs.Command.Request
import DepGraph.Proofs.Containment.Ancestors
import DepGraph.Proofs.Containment.Forest
import DepGraph.Proofs.Containment.Nesting
import DepGraph.Proofs.Containment.Places
import DepGraph.Proofs.Containment.Rearranged
import DepGraph.Proofs.Containment.Splice
import DepGraph.Proofs.Containment.StandIn
import DepGraph.Proofs.Cycle.Collapse
import DepGraph.Proofs.Cycle.Missed
import DepGraph.Proofs.Cycle.Pruning
import DepGraph.Proofs.Cycle.Renaming
import DepGraph.Proofs.Cycle.Reported
import DepGraph.Proofs.Cycle.Sweeps
import DepGraph.Proofs.Cycle.Verdict
import DepGraph.Proofs.Cycle.Walk
import DepGraph.Proofs.Diagram.Clean
import DepGraph.Proofs.Diagram.Edges
import DepGraph.Proofs.Diagram.Excluded
import DepGraph.Proofs.Diagram.Quotient
import DepGraph.Proofs.Diagram.Redrawn
import DepGraph.Proofs.Diagram.Stages
import DepGraph.Proofs.Export.Attribute
import DepGraph.Proofs.Export.Cluster
import DepGraph.Proofs.Export.Data
import DepGraph.Proofs.Export.Dgml
import DepGraph.Proofs.Export.DgmlDocument
import DepGraph.Proofs.Export.Dot
import DepGraph.Proofs.Export.Page
import DepGraph.Proofs.Export.Script
import DepGraph.Proofs.Export.Unambiguous
import DepGraph.Proofs.Graph.Collapse
import DepGraph.Proofs.Graph.CollapseTwice
import DepGraph.Proofs.Graph.Merge
import DepGraph.Proofs.Graph.Name
import DepGraph.Proofs.Graph.Reachability
import DepGraph.Proofs.Json.LineEnds
import DepGraph.Proofs.Json.Roundtrip
import DepGraph.Proofs.Language.Import
import DepGraph.Proofs.Language.ImportList
import DepGraph.Proofs.Language.Layout
import DepGraph.Proofs.Language.LineByLine
import DepGraph.Proofs.Language.LockFiles
import DepGraph.Proofs.Language.Scan
import DepGraph.Proofs.Language.YarnLock.Entry
import DepGraph.Proofs.Language.YarnLock.File
import DepGraph.Proofs.Language.YarnLock.Header
import DepGraph.Proofs.Language.YarnLock.Requirement
import DepGraph.Proofs.Language.YarnLock.Written
import DepGraph.Proofs.OrderedMap
import DepGraph.Proofs.Path.Matches
import DepGraph.Proofs.Path.Normal
import DepGraph.Proofs.Path.Outcome
import DepGraph.Proofs.Path.Relative
import DepGraph.Proofs.Run.Cache
import DepGraph.Proofs.Run.InvalidFiles
import DepGraph.Proofs.Run.Isolation
import DepGraph.Proofs.Run.Survey
import DepGraph.Proofs.Settings.Layers
import DepGraph.Proofs.Survey.Agreement
import DepGraph.Proofs.Survey.Closed
import DepGraph.Proofs.Survey.Collected
import DepGraph.Proofs.Survey.Derive
import DepGraph.Proofs.Survey.Effect
import DepGraph.Proofs.Survey.Idempotence
import DepGraph.Proofs.Survey.Json
import DepGraph.Proofs.Survey.Records
import DepGraph.Proofs.Survey.Reports
import DepGraph.Proofs.Text.Rewriting
import DepGraph.Proofs.Text.Segments
import DepGraph.Proofs.Text.Utf8
import DepGraph.Proofs.Text.Words
import DepGraph.Proofs.Workspace.Names
import DepGraph.Proofs.Workspace.Reading
import DepGraph.Proofs.Workspace.Write
import DepGraph.Proofs.Xml.Reader
import DepGraph.Proofs.Xml.Tags
import DepGraph.Report
import DepGraph.Run
import DepGraph.Service.Basic
import DepGraph.Service.Query
import DepGraph.Settings.Basic
import DepGraph.Settings.Config
import DepGraph.Settings.File
import DepGraph.Settings.Text
import DepGraph.Survey
import DepGraph.Survey.Json
import DepGraph.Survey.Scan
import DepGraph.Text.Blank
import DepGraph.Text.CodeSet
import DepGraph.Text.Digit
import DepGraph.Text.Glob
import DepGraph.Text.Identifier
import DepGraph.Text.LetterCase
import DepGraph.Text.Lines
import DepGraph.Text.Printable
import DepGraph.Text.Quoted
import DepGraph.Text.Scan
import DepGraph.Text.Segments
import DepGraph.Text.Utf8
import DepGraph.Text.Word
import DepGraph.Workspace.Basic
import DepGraph.Workspace.Reading
