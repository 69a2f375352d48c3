import NameResolution.Resolve.Crate
import NameResolution.Tree.NodeIds
import NameResolution.Tree.Spans
import NameResolution.Tree.Outline
import NameResolution.Tree.Builder
import NameResolution.Tree.Relabel
import NameResolution.Tree.Shape
import NameResolution.Proofs.Execution
import NameResolution.Proofs.Growth
import NameResolution.Proofs.Identities
import NameResolution.Proofs.Attempts
import NameResolution.Proofs.DeclarationPass
import NameResolution.Proofs.Seed
import NameResolution.Proofs.FirstPass
import NameResolution.Proofs.Lexical.Environment
import NameResolution.Proofs.Lexical.PathReading
import NameResolution.Proofs.Lexical.ItemReading
import NameResolution.Proofs.Lexical.Agreement
import NameResolution.Proofs.Lexical.FrameRules
import NameResolution.Proofs.Lexical.Binding
import NameResolution.Proofs.Lexical.StepAgreement
import NameResolution.Proofs.Lexical.PathAgreement
import NameResolution.Proofs.Lexical.MemberAgreement
import NameResolution.Proofs.Lexical.ItemAgreement
import NameResolution.Proofs.Nesting
import NameResolution.Proofs.Lexical.SecondPass
import NameResolution.Proofs.Completion
import NameResolution.Proofs.Lexical.Replay
import NameResolution.Proofs.Scoping
import NameResolution.Proofs.VisitedPaths
import NameResolution.Proofs.CanonicalPaths
import NameResolution.Proofs.UniquePaths
import NameResolution.Proofs.RibPaths
import NameResolution.Proofs.ChildTables
import NameResolution.Proofs.SelfType
import NameResolution.Proofs.Sites
import NameResolution.Proofs.SiteNodes
import NameResolution.Proofs.Chains
import NameResolution.Proofs.PassRules
import NameResolution.Proofs.StableRelations
import NameResolution.Proofs.ParentModules
import NameResolution.Proofs.HomeModules
import NameResolution.Proofs.ModuleTree
import NameResolution.Proofs.Lexical.Traversal
import NameResolution.Proofs.Lexical.Visits
import NameResolution.Proofs.Lexical.Lookups
import NameResolution.Proofs.Lexical.Parts
import NameResolution.Proofs.Lexical.PathSteps
import NameResolution.Proofs.Lexical.SegmentUses
import NameResolution.Proofs.Lexical.SegmentSites
import NameResolution.Proofs.PrivateUses
import NameResolution.Proofs.ParentPaths
import NameResolution.Proofs.PathEndings
import NameResolution.Proofs.MemberPaths
import NameResolution.Proofs.UnresolvedPaths
import NameResolution.Proofs.ItemOrder
import NameResolution.Proofs.Lexical.Likeness
import NameResolution.Proofs.DeclarationOrder
import NameResolution.Proofs.TreeRules
import NameResolution.Proofs.StackBalance
import NameResolution.Proofs.Coverage
import NameResolution.Proofs.SafeActions
import NameResolution.Proofs.Violations
import NameResolution.Proofs.Lexical.Entries
import NameResolution.Proofs.WriteOnce
import NameResolution.Proofs.Binders
import NameResolution.Proofs.Lexical.Introductions
import NameResolution.Proofs.Lexical.PathIntroductions
import NameResolution.Proofs.Lexical.ItemIntroductions
import NameResolution.Proofs.Lexical.LocalNames
import NameResolution.Proofs.KeptDeclarations
import NameResolution.Proofs.ClosedEntries
import NameResolution.Proofs.VisitOrder
import NameResolution.Proofs.CoupledPasses
import NameResolution.Proofs.ReportSettings
import NameResolution.Proofs.CratePrefix
import NameResolution.Proofs.ParameterHeads
import NameResolution.Proofs.Projections
import NameResolution.Proofs.RelabelledTrees
import NameResolution.Proofs.RelabelledSessions
import NameResolution.Proofs.RelabelledActions
import NameResolution.Proofs.RelabelledPasses
import NameResolution.Proofs.OpaqueIdentities
import NameResolution.Proofs.VisibilityBlind
import NameResolution.Proofs.TypeReader
import NameResolution.Proofs.TypeTexts
import NameResolution.Proofs.TypeShapes
import NameResolution.Proofs.ImplCollisions
import NameResolution.Proofs.ArgumentTexts
import NameResolution.Proofs.VisibilityOrder
import NameResolution.Proofs.AccessibleNames
import NameResolution.Proofs.LocalDuplicates
import NameResolution.Proofs.ScopeHistory
import NameResolution.Proofs.BarePaths
import NameResolution.Proofs.WrittenTypes
import NameResolution.Proofs.BuiltTrees
