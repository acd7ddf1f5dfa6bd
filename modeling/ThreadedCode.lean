import ThreadedCode.Image.Field
import ThreadedCode.Main
import ThreadedCode.Proofs.BodyRendering
import ThreadedCode.Proofs.Canonical
import ThreadedCode.Proofs.ClosedUnit
import ThreadedCode.Proofs.MeaningPreservation
import ThreadedCode.Proofs.ProgramExit
import ThreadedCode.Proofs.UnitLayout
import ThreadedCode.Proofs.Verdict
import ThreadedCode.Proofs.EmbeddedTable
import ThreadedCode.Proofs.NoteErasure
import ThreadedCode.Proofs.TwoRuns
import ThreadedCode.Proofs.Annotations
import ThreadedCode.Proofs.BlockMarks
import ThreadedCode.Proofs.FunctionLabels
import ThreadedCode.Proofs.OperandExtents
import ThreadedCode.Proofs.BlockPartition
import ThreadedCode.Proofs.Truncation
import ThreadedCode.Proofs.WrittenFiles
import ThreadedCode.Proofs.Evidence
import ThreadedCode.Proofs.PrefixReading
import ThreadedCode.Proofs.StringLiterals
import ThreadedCode.Proofs.LineIndentation
import ThreadedCode.Proofs.DispatchTables
import ThreadedCode.Body.Pen
import ThreadedCode.Proofs.LimitedRoom
import ThreadedCode.Proofs.WrittenBytes
import ThreadedCode.Proofs.PenText
import ThreadedCode.Proofs.ReaderSteps
import ThreadedCode.Proofs.SourceFailure
import ThreadedCode.Proofs.SplitMarks
import ThreadedCode.Proofs.CheckedNames
import ThreadedCode.Proofs.DefaultOutput
import ThreadedCode.Proofs.FunctionLookup
