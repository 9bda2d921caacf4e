import AbsoluteImports.CommandLine.Run
import AbsoluteImports.Main
import AbsoluteImports.Proofs.Text.Blank
import AbsoluteImports.Proofs.Text.Cutting
import AbsoluteImports.Proofs.Text.Utf8
import AbsoluteImports.Proofs.Text.Utf16
import AbsoluteImports.Proofs.Encoding.Segments
import AbsoluteImports.Proofs.Change
import AbsoluteImports.Proofs.ImportLine.Grammar
import AbsoluteImports.Proofs.ImportLine.Absolute
import AbsoluteImports.Proofs.Document
import AbsoluteImports.Proofs.Path.Components
import AbsoluteImports.Proofs.Path.Elements
import AbsoluteImports.Proofs.Path.Cleaning
import AbsoluteImports.Proofs.Package
import AbsoluteImports.Proofs.Config
import AbsoluteImports.Proofs.FileTree.View
import AbsoluteImports.Proofs.FileTree.Resolution
import AbsoluteImports.Proofs.FileTree.Replacement
import AbsoluteImports.Proofs.Scan.Separation
import AbsoluteImports.Proofs.Conversion.FileStep
import AbsoluteImports.Proofs.Conversion.Outcome
import AbsoluteImports.Proofs.Conversion.Untouched
import AbsoluteImports.Proofs.Encoding.Rereading
import AbsoluteImports.Proofs.FileTree.Likeness
import AbsoluteImports.Proofs.Conversion.Independence
import AbsoluteImports.Proofs.Scan.Likeness
import AbsoluteImports.Proofs.Conversion.FixedPoint
import AbsoluteImports.Proofs.FileTree.Growth
import AbsoluteImports.Proofs.FileTree.TempName
import AbsoluteImports.Proofs.FileTree.Overlay
import AbsoluteImports.Proofs.Scan.Presence
import AbsoluteImports.Proofs.SourceFile.Writing
import AbsoluteImports.Proofs.SourceFile.Atomicity
import AbsoluteImports.Proofs.Conversion.Workers
import AbsoluteImports.Proofs.Conversion.Schedules
import AbsoluteImports.Proofs.Conversion.Calls
import AbsoluteImports.Proofs.Conversion.DryRun
import AbsoluteImports.Proofs.Conversion.Noninterference
import AbsoluteImports.Proofs.Conversion.Consistency
import AbsoluteImports.Proofs.Conversion.Quiet
import AbsoluteImports.Proofs.CommandLine.Gate
import AbsoluteImports.Proofs.CommandLine.Accounting
import AbsoluteImports.Proofs.Glob.Steady
import AbsoluteImports.Proofs.Glob.Matching
import AbsoluteImports.Proofs.Scan.Exclusion
import AbsoluteImports.Proofs.Scan.Exactness
import AbsoluteImports.Proofs.FileTree.Links
import AbsoluteImports.Proofs.Scan.SameDirectory
import AbsoluteImports.Proofs.ImportLine.Rendering
import AbsoluteImports.Proofs.Encoding.Lossless
import AbsoluteImports.Proofs.ImportLine.Parenthesis
import AbsoluteImports.Proofs.Change.Replay
import AbsoluteImports.Proofs.Document.Concatenation
import AbsoluteImports.Proofs.Document.Naming
import AbsoluteImports.Proofs.Conversion.Storage
import AbsoluteImports.Proofs.Conversion.Cancellation
import AbsoluteImports.Proofs.FileTree.Obstacles
import AbsoluteImports.Proofs.Conversion.MissingDirectory
import AbsoluteImports.Proofs.Report.Names
import AbsoluteImports.Proofs.Text.JsonGrammar
import AbsoluteImports.Proofs.Text.JsonReading
import AbsoluteImports.Proofs.Text.Lenient
import AbsoluteImports.Proofs.Config.Json
