import ScriptDriver.Main
import ScriptDriver.Proofs.CommandLine.Tiling
import ScriptDriver.Proofs.ResponseFile.Reference
import ScriptDriver.Proofs.Driver.Course
import ScriptDriver.Proofs.Backend.Batch
import ScriptDriver.Proofs.CommandLine.Item
import ScriptDriver.Proofs.CommandLine.Query
import ScriptDriver.Proofs.Settings.Problem
import ScriptDriver.Proofs.Driver.Handover
import ScriptDriver.Proofs.File.Ending
import ScriptDriver.Proofs.File.LinkFree
import ScriptDriver.Proofs.File.Written
import ScriptDriver.Proofs.Output.DependencyPath
import ScriptDriver.Proofs.Backend.RuleFiles
import ScriptDriver.Proofs.Backend.Outcomes
import ScriptDriver.Proofs.Compiler.Holding
import ScriptDriver.Proofs.Driver.Departure
import ScriptDriver.Proofs.ResponseFile.Writing
import ScriptDriver.Proofs.ResponseFile.Reuse
import ScriptDriver.Proofs.ResponseFile.Depth
import ScriptDriver.Proofs.ResponseFile.FailSoft
import ScriptDriver.Proofs.ResponseFile.Leftover
import ScriptDriver.Proofs.CommandLine.Rendering
import ScriptDriver.Proofs.CommandLine.Continuation
import ScriptDriver.Proofs.CommandLine.Reordering
import ScriptDriver.Proofs.CommandLine.Selection
import ScriptDriver.Proofs.CommandLine.Alias
import ScriptDriver.Proofs.ResponseFile.Bytewise
import ScriptDriver.Proofs.ResponseFile.Conservation
import ScriptDriver.Proofs.ResponseFile.Concatenation
import ScriptDriver.Proofs.Settings.Rearrangement
import ScriptDriver.Proofs.Settings.Totality
import ScriptDriver.Proofs.Output.Decomposition
import ScriptDriver.Proofs.Driver.Modes
import ScriptDriver.Proofs.Driver.Level
import ScriptDriver.Proofs.File.Atomicity
import ScriptDriver.Proofs.Backend.Legibility
import ScriptDriver.Proofs.Backend.IncludePaths
import ScriptDriver.Proofs.Toolchain.Program
import ScriptDriver.Proofs.Toolchain.Unusable
import ScriptDriver.Proofs.Toolchain.Description
import ScriptDriver.Proofs.Toolchain.Discovery
