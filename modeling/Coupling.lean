import Coupling.Analysis
import Coupling.Archive.Basic
import Coupling.Archive.Checksum
import Coupling.Archive.CodePage
import Coupling.Archive.Inflate
import Coupling.Artifact.Error
import Coupling.Artifact.Indexer
import Coupling.Artifact.Scan
import Coupling.ClassFile.Annotation
import Coupling.ClassFile.Basic
import Coupling.ClassFile.ConstantPool
import Coupling.ClassFile.Descriptor
import Coupling.ClassFile.Reader
import Coupling.ClassFile.Signature
import Coupling.Command.Arguments
import Coupling.Command.Basic
import Coupling.Command.Footprint
import Coupling.Command.Run
import Coupling.Disk
import Coupling.Document
import Coupling.Graph.Basic
import Coupling.Graph.Cycle
import Coupling.Graph.Document
import Coupling.Index
import Coupling.Java.Grammar.Basic
import Coupling.Java.Grammar.Declaration
import Coupling.Java.Grammar.Expression
import Coupling.Java.Grammar.Statement
import Coupling.Java.Grammar.Type
import Coupling.Java.Lookahead
import Coupling.Java.Metrics
import Coupling.Java.Operator
import Coupling.Java.Parser
import Coupling.Java.Token
import Coupling.Java.Token.Scanner
import Coupling.Java.Tree
import Coupling.Json.Basic
import Coupling.Json.Parser
import Coupling.Json.Printer
import Coupling.Main
import Coupling.Name
import Coupling.Path
import Coupling.Project
import Coupling.Proofs.Artifact.Addition
import Coupling.Proofs.Artifact.ClassPath
import Coupling.Proofs.Artifact.Export
import Coupling.Proofs.Artifact.Folder
import Coupling.Proofs.ClassFile.ByteScan
import Coupling.Proofs.ClassFile.Descent
import Coupling.Proofs.ClassFile.Descriptor
import Coupling.Proofs.ClassFile.DescriptorGrammar
import Coupling.Proofs.ClassFile.Layout
import Coupling.Proofs.ClassFile.RoundTrip
import Coupling.Proofs.ClassFile.Signature
import Coupling.Proofs.ClassFile.StoredName
import Coupling.Proofs.ClassFile.Truncation
import Coupling.Proofs.Command.Action
import Coupling.Proofs.Command.Descriptor
import Coupling.Proofs.Command.Ownership
import Coupling.Proofs.Graph.Comparison
import Coupling.Proofs.Graph.Construction
import Coupling.Proofs.Graph.CycleOrder
import Coupling.Proofs.Graph.Cycles
import Coupling.Proofs.Graph.DepthFirst
import Coupling.Proofs.Graph.Document
import Coupling.Proofs.Graph.Reachability
import Coupling.Proofs.Graph.SearchInvariant
import Coupling.Proofs.Graph.SearchRun
import Coupling.Proofs.Graph.SearchStep
import Coupling.Proofs.Index.Build
import Coupling.Proofs.Index.ClassCycles
import Coupling.Proofs.Index.ClassGraph
import Coupling.Proofs.Index.Counts
import Coupling.Proofs.Index.CycleMembers
import Coupling.Proofs.Index.Exclusion
import Coupling.Proofs.Index.PackageCycles
import Coupling.Proofs.Index.PackageGraph
import Coupling.Proofs.Index.PackageSelection
import Coupling.Proofs.Index.SelectionGrowth
import Coupling.Proofs.Java.Chains
import Coupling.Proofs.Java.Comments
import Coupling.Proofs.Java.Decisions
import Coupling.Proofs.Java.Grouping
import Coupling.Proofs.Java.Reading
import Coupling.Proofs.Java.Scanning
import Coupling.Proofs.Name
import Coupling.Proofs.Name.Parts
import Coupling.Proofs.Recent
import Coupling.Proofs.Report.Colour
import Coupling.Proofs.Report.CyclePath
import Coupling.Proofs.Report.Layout
import Coupling.Proofs.Report.Names
import Coupling.Proofs.SourceFile
import Coupling.Recent
import Coupling.Registry.Basic
import Coupling.Registry.Document
import Coupling.Report.Basic
import Coupling.Report.Json
import Coupling.Report.Text
import Coupling.Scope
import Coupling.Settings
import Coupling.SourceFile
import Coupling.Text.Utf8
import Coupling.Toml.Basic
import Coupling.Toml.Literal
import Coupling.Toml.Parser
import Coupling.Toml.Text
