import CallAtlas.Main
import CallAtlas.Proofs.Agreement
import CallAtlas.Proofs.Attribution
import CallAtlas.Proofs.CallGraph
import CallAtlas.Proofs.Crates
import CallAtlas.Proofs.EventLog
import CallAtlas.Proofs.Grounding
import CallAtlas.Proofs.Indexed
import CallAtlas.Proofs.LoadOrder
import CallAtlas.Proofs.ModuleTree
import CallAtlas.Proofs.Resolution
import CallAtlas.Proofs.Scoping
import CallAtlas.Proofs.Spelling
import CallAtlas.Proofs.UnrelatedCrates
import CallAtlas.Proofs.DotDecoding
import CallAtlas.Proofs.JsonReading
import CallAtlas.Proofs.BuiltSymbols
import CallAtlas.Proofs.DocumentReading
import CallAtlas.Proofs.DocumentNodes
import CallAtlas.Proofs.KnownCallers
import CallAtlas.Proofs.Emptying
import CallAtlas.Proofs.Additions
import CallAtlas.Proofs.BodyItems
import CallAtlas.Proofs.CompleteReading
import CallAtlas.Proofs.Delivery
import CallAtlas.Proofs.MacroArguments
import CallAtlas.Proofs.Dependencies
import CallAtlas.Proofs.ExternImports
import CallAtlas.Proofs.Reexports
import CallAtlas.Proofs.SelfCalls
import CallAtlas.Proofs.ReadingEnds
import CallAtlas.Proofs.FilePaths
import CallAtlas.Proofs.ModuleNames
import CallAtlas.Proofs.FileLayout
import CallAtlas.Proofs.WorkspaceOutcome
import CallAtlas.Proofs.SelfPaths
import CallAtlas.Proofs.RelativePaths
import CallAtlas.Proofs.Universe
import CallAtlas.Proofs.LeadingColons
import CallAtlas.Proofs.DirectoryPatterns
import CallAtlas.Proofs.Operations
import CallAtlas.Proofs.Tables
import CallAtlas.Proofs.UseTrees
import CallAtlas.Proofs.PatternBinders
import CallAtlas.Proofs.Visiting
