import SurfaceRegistry.Disk.Machine
import SurfaceRegistry.Main
import SurfaceRegistry.Proofs.Json.Reading
import SurfaceRegistry.Proofs.Json.Decoding
import SurfaceRegistry.Proofs.Timestamp
import SurfaceRegistry.Proofs.Check.Findings
import SurfaceRegistry.Proofs.Check.IgnoredTypes
import SurfaceRegistry.Proofs.Check.Subjects
import SurfaceRegistry.Proofs.Report.RoundTrip
import SurfaceRegistry.Proofs.Text.Split
import SurfaceRegistry.Proofs.PackagePath
import SurfaceRegistry.Proofs.Check.Verdict
import SurfaceRegistry.Proofs.RepoPath
import SurfaceRegistry.Proofs.Disk.Walk
import SurfaceRegistry.Proofs.Check.Confinement
import SurfaceRegistry.Proofs.TypeName
import SurfaceRegistry.Proofs.EffectiveRegistry
import SurfaceRegistry.Proofs.Lookup
import SurfaceRegistry.Proofs.Check.Order
import SurfaceRegistry.Proofs.Check.Consistency
import SurfaceRegistry.Proofs.Check.Probing
import SurfaceRegistry.Proofs.Check.Failures
import SurfaceRegistry.Proofs.Toml.Keys
import SurfaceRegistry.Proofs.Report.NormalForm
import SurfaceRegistry.Proofs.Report.Annotations
import SurfaceRegistry.Proofs.Json.NumeralGrammar
import SurfaceRegistry.Proofs.Json.TextGrammar
import SurfaceRegistry.Proofs.Json.Rearranging
import SurfaceRegistry.Proofs.Report.Rearranging
import SurfaceRegistry.Proofs.Disk.Growth
import SurfaceRegistry.Proofs.Disk.Writing
import SurfaceRegistry.Proofs.CommandLine.Steps
import SurfaceRegistry.Proofs.CommandLine.CheckRun
import SurfaceRegistry.Proofs.Config.Reading
import SurfaceRegistry.Proofs.Config.Rearranging
import SurfaceRegistry.Proofs.CommandLine.SameRegistry
import SurfaceRegistry.Proofs.Disk.Changes
import SurfaceRegistry.Proofs.CommandLine.Reading
import SurfaceRegistry.Proofs.CommandLine.Settings
import SurfaceRegistry.Proofs.CommandLine.Outputs
import SurfaceRegistry.Proofs.Json.Validation
import SurfaceRegistry.Proofs.Config.Schema
import SurfaceRegistry.Proofs.Segments
import SurfaceRegistry.Proofs.TypeName.Faults
import SurfaceRegistry.Proofs.RepoPath.NormalForm
import SurfaceRegistry.Proofs.Disk.Sources
import SurfaceRegistry.Proofs.Disk.Above
import SurfaceRegistry.Proofs.Check.SourceCount
import SurfaceRegistry.Proofs.RepoPath.Joining
import SurfaceRegistry.Proofs.PackagePath.Spelling
import SurfaceRegistry.Proofs.Check.Answers
import SurfaceRegistry.Proofs.Text.Lines
import SurfaceRegistry.Proofs.Show
import SurfaceRegistry.Proofs.EffectiveRegistry.Restating
import SurfaceRegistry.Proofs.TypeName.Order
import SurfaceRegistry.Proofs.Config.Blank
import SurfaceRegistry.Proofs.Report.Markdown
import SurfaceRegistry.Proofs.RepoPath.Resolution
import SurfaceRegistry.Proofs.Report.Escaping
