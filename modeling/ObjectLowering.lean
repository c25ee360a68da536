import ObjectLowering.Building.Program
import ObjectLowering.Compile
import ObjectLowering.Proofs.Arrays.NewGrids
import ObjectLowering.Proofs.Building.Forest
import ObjectLowering.Proofs.Building.Strictness
import ObjectLowering.Proofs.Calls.CallLowering
import ObjectLowering.Proofs.Calls.CallTargets
import ObjectLowering.Proofs.Calls.DirectCalls
import ObjectLowering.Proofs.Calls.Routines
import ObjectLowering.Proofs.Checks.NullChecks
import ObjectLowering.Proofs.Checks.RuntimeChecks
import ObjectLowering.Proofs.Construction.InitRuns
import ObjectLowering.Proofs.Construction.ParentCalls
import ObjectLowering.Proofs.Construction.RoutineReturns
import ObjectLowering.Proofs.Construction.TwoPhases
import ObjectLowering.Proofs.Hierarchy.Acyclic
import ObjectLowering.Proofs.Hierarchy.HierarchyErrors
import ObjectLowering.Proofs.Hierarchy.RepeatedAncestors
import ObjectLowering.Proofs.Initializers.ChainEntries
import ObjectLowering.Proofs.Initializers.Chains
import ObjectLowering.Proofs.Initializers.DataLayout
import ObjectLowering.Proofs.Initializers.FieldMembers
import ObjectLowering.Proofs.Limits.UnitRoom
import ObjectLowering.Proofs.Lowering.ArrayOperands
import ObjectLowering.Proofs.Lowering.ClassLayouts
import ObjectLowering.Proofs.Lowering.Ensures
import ObjectLowering.Proofs.Lowering.LoweredClasses
import ObjectLowering.Proofs.Lowering.Total
import ObjectLowering.Proofs.Naming.NumberedNames
import ObjectLowering.Proofs.Naming.SlotNames
import ObjectLowering.Proofs.Overloads.LeastOverload
import ObjectLowering.Proofs.Overloads.ReorderedMethods
import ObjectLowering.Proofs.Overloads.SlotSignatures
import ObjectLowering.Proofs.Printing.Grouping
import ObjectLowering.Proofs.Printing.HeaderNames
import ObjectLowering.Proofs.Printing.LoopHeads
import ObjectLowering.Proofs.Printing.NestedUnits
import ObjectLowering.Proofs.Printing.PrintedTrees
import ObjectLowering.Proofs.Printing.StringLiterals
import ObjectLowering.Proofs.Printing.TreeReader
import ObjectLowering.Proofs.Printing.TrimmedText
import ObjectLowering.Proofs.Resolution.Annotated
import ObjectLowering.Proofs.Resolution.Dispatch
import ObjectLowering.Proofs.Resolution.Numbering
import ObjectLowering.Proofs.Resolution.Recorded
import ObjectLowering.Proofs.Resolution.Stages
import ObjectLowering.Proofs.Resolution.Walk
import ObjectLowering.Proofs.Sources.PathSpellings
import ObjectLowering.Proofs.Sources.SourceSet
import ObjectLowering.Proofs.Stores.ArenaRuns
import ObjectLowering.Proofs.Stores.InternedNames
import ObjectLowering.Proofs.Temporaries.Declarations
import ObjectLowering.Proofs.Temporaries.Forms
import ObjectLowering.Proofs.Temporaries.KeptNames
import ObjectLowering.Proofs.Temporaries.ScopedTemporaries
import ObjectLowering.Proofs.Temporaries.TempNames
import ObjectLowering.Proofs.Units.SeparateUnits
import ObjectLowering.Proofs.Units.UnitOrder
import ObjectLowering.Proofs.Vtables.Bindings
import ObjectLowering.Proofs.Vtables.Overrides
import ObjectLowering.Proofs.Vtables.VtableShape
import ObjectLowering.Source.Numbering
