import Depends.Analysis.Basic
import Depends.Analysis.Cache
import Depends.Analysis.Run
import Depends.Analysis.Source
import Depends.CommandLine.Modes
import Depends.CommandLine.Options
import Depends.CommandLine.Run
import Depends.Declaration.Basic
import Depends.Declaration.Table
import Depends.Failure
import Depends.Files.Tree
import Depends.Files.Walk
import Depends.Filter
import Depends.Glob.Answers
import Depends.Glob.Basic
import Depends.Glob.Compile
import Depends.Glob.Syntax
import Depends.Graph.Basic
import Depends.Graph.Chain
import Depends.Graph.Components
import Depends.Graph.Impact
import Depends.Graph.Metrics
import Depends.History.Address
import Depends.History.Archive
import Depends.History.Ledger
import Depends.History.Snapshot
import Depends.History.Store
import Depends.Main
import Depends.Notice
import Depends.Number
import Depends.Path
import Depends.Proofs.Analysis.Coherence
import Depends.Proofs.Analysis.Completeness
import Depends.Proofs.Analysis.Cycles
import Depends.Proofs.Analysis.Declaring
import Depends.Proofs.Analysis.Faults
import Depends.Proofs.Analysis.Interference
import Depends.Proofs.Analysis.Isolation
import Depends.Proofs.Analysis.Journal
import Depends.Proofs.Analysis.References
import Depends.Proofs.Analysis.Reordering
import Depends.Proofs.Analysis.Rerun
import Depends.Proofs.Analysis.Separation
import Depends.Proofs.Analysis.Soundness
import Depends.Proofs.Analysis.Transparency
import Depends.Proofs.Declaration.Merging
import Depends.Proofs.Declaration.Received
import Depends.Proofs.Declaration.Sites
import Depends.Proofs.Files.Sound
import Depends.Proofs.Files.Walk
import Depends.Proofs.Graph.Classes
import Depends.Proofs.Graph.Condensation
import Depends.Proofs.Graph.Dependents
import Depends.Proofs.Graph.Growth
import Depends.Proofs.Graph.Linking
import Depends.Proofs.Graph.Metrics
import Depends.Proofs.Graph.Outgoing
import Depends.Proofs.Graph.Reachability
import Depends.Proofs.Graph.ShortestChain
import Depends.Proofs.Graph.StrongComponents
import Depends.Proofs.History.Order
import Depends.Proofs.History.RoundTrip
import Depends.Proofs.History.Saving
import Depends.Proofs.Number.Exact
import Depends.Proofs.Path.Elements
import Depends.Proofs.Path.Order
import Depends.Proofs.Report.Consistency
import Depends.Proofs.Report.EdgeTable
import Depends.Proofs.Report.Identifiers
import Depends.Proofs.Report.Marking
import Depends.Proofs.Repository.Absorbing
import Depends.Proofs.Repository.Closing
import Depends.Proofs.Repository.Continuing
import Depends.Proofs.Repository.Refining
import Depends.Proofs.Repository.Tables
import Depends.Proofs.Rule.Generics
import Depends.Proofs.Rule.MethodHeader
import Depends.Proofs.Rule.Range
import Depends.Proofs.Rule.Role
import Depends.Proofs.Scope.Brackets
import Depends.Proofs.Scope.Extents
import Depends.Proofs.Scope.Nesting
import Depends.Proofs.Scope.Tracking
import Depends.Proofs.Semi.FirstTokens
import Depends.Proofs.Semi.ForHeads
import Depends.Proofs.Semi.Lines
import Depends.Proofs.Semi.Partition
import Depends.Proofs.Source.Answers
import Depends.Proofs.Source.View
import Depends.Proofs.Text.ByteOrder
import Depends.Proofs.Text.Decoding
import Depends.Proofs.Text.Digits
import Depends.Proofs.Text.Distinct
import Depends.Proofs.Text.Joined
import Depends.Proofs.Time.Calendar
import Depends.Proofs.Time.Clock
import Depends.Proofs.Time.RoundTrip
import Depends.Proofs.Time.TextOrder
import Depends.Proofs.Token.Characters
import Depends.Proofs.Token.Cut
import Depends.Proofs.Token.Enclosures
import Depends.Proofs.Token.Lossless
import Depends.Proofs.Token.Peeking
import Depends.Proofs.Watch.Delivery
import Depends.Proofs.Watch.NewFolders
import Depends.Report.Artifact
import Depends.Report.Console
import Depends.Report.Data
import Depends.Report.Diagram
import Depends.Report.Diagram.Dot
import Depends.Report.Diagram.Mermaid
import Depends.Report.Diagram.PlantUml
import Depends.Report.Diagram.Tsv
import Depends.Report.Document
import Depends.Report.Formats
import Depends.Report.Layout
import Depends.Report.Listing
import Depends.Report.Tables
import Depends.Repository.Basic
import Depends.Repository.Workspace
import Depends.Rule.Action
import Depends.Rule.Basic
import Depends.Rule.Pass
import Depends.Rule.Shape
import Depends.Scan
import Depends.Scope
import Depends.Semi.Basic
import Depends.Semi.Reader
import Depends.Semi.Stream
import Depends.Session.Basic
import Depends.Session.Health
import Depends.Session.Request
import Depends.Session.Run
import Depends.Settings.Basic
import Depends.Settings.DotEnv
import Depends.Settings.Environment
import Depends.Settings.File
import Depends.Settings.Slots
import Depends.Source
import Depends.Source.Open
import Depends.Text.Cluster
import Depends.Text.Decimal
import Depends.Text.Fields
import Depends.Text.Letter
import Depends.Text.Lower
import Depends.Text.Percent
import Depends.Text.Printable
import Depends.Text.Quoted
import Depends.Text.Utf8
import Depends.Text.Whole
import Depends.Text.Width
import Depends.Throttle
import Depends.Time.Duration
import Depends.Time.Stamp
import Depends.Token.Basic
import Depends.Token.Chunk
import Depends.Token.Reader
import Depends.Token.States
import Depends.Token.Stream
import Depends.Toml.Basic
import Depends.Toml.Document
import Depends.Toml.Scalar
import Depends.Toml.Table
import Depends.Watch
import Depends.Yaml.Block
import Depends.Yaml.Plain
import Depends.Yaml.Scalar
import Depends.Proofs.Scan.Coverage
import Depends.Proofs.Path.Order
import Depends.Proofs.Scan.Order
