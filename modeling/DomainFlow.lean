import DomainFlow.Graph.Builder
import DomainFlow.Json.Reader
import DomainFlow.Json.Printer
import DomainFlow.Package.Analysis
import DomainFlow.Package.Flow
import DomainFlow.Relation.Diff
import DomainFlow.Toml.Reader
import DomainFlow.Config.Load
import DomainFlow.Config.Printer
import DomainFlow.Files.Tree
import DomainFlow.Report.Pretty
import DomainFlow.CommandLine.Run
import DomainFlow.Main
import DomainFlow.Proofs.Traversal
import DomainFlow.Proofs.FlowGraph
import DomainFlow.Proofs.Extraction
import DomainFlow.Proofs.RelationMap
import DomainFlow.Proofs.Walk
import DomainFlow.Proofs.RelationKeys
import DomainFlow.Proofs.InstallScript
import DomainFlow.Proofs.ShortestWalk
import DomainFlow.Proofs.WitnessPaths
import DomainFlow.Proofs.Label
import DomainFlow.Proofs.Comparison
import DomainFlow.Proofs.Places
import DomainFlow.Proofs.Propagation
import DomainFlow.Proofs.Recode
import DomainFlow.Proofs.Spread
import DomainFlow.Proofs.LiteralChurn
import DomainFlow.Proofs.ExtractedDomain
import DomainFlow.Proofs.Growth
import DomainFlow.Proofs.GrowingRelations
import DomainFlow.Proofs.Condensation
import DomainFlow.Proofs.Reorder
import DomainFlow.Proofs.PackageFlow
import DomainFlow.Proofs.Coarsening
import DomainFlow.Proofs.Normalization
import DomainFlow.Proofs.Validation
import DomainFlow.Proofs.Numeral
import DomainFlow.Proofs.JsonText
import DomainFlow.Proofs.JsonRecord
import DomainFlow.Proofs.DocumentText
import DomainFlow.Proofs.RelationText
import DomainFlow.Proofs.PathComponents
import DomainFlow.Proofs.Provenance
import DomainFlow.Proofs.ModuleLoader
import DomainFlow.Proofs.CallReturns
import DomainFlow.Proofs.SpreadRounds
import DomainFlow.Proofs.WalkRounds
import DomainFlow.Proofs.NodeChange
import DomainFlow.Proofs.TypeCompletion
import DomainFlow.Proofs.ShortTypes
import DomainFlow.Proofs.PathAncestors
import DomainFlow.Proofs.ConfigSearch
import DomainFlow.Proofs.FlowStore
import DomainFlow.Proofs.GraphQueries
import DomainFlow.Proofs.ScriptFile
import DomainFlow.Proofs.ExtractionRun
import DomainFlow.Proofs.Interning
