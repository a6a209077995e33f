import TableLexer.CharSource.Any
import TableLexer.Main
import TableLexer.Program.Compile
import TableLexer.Program.Scan
import TableLexer.Proofs.Checked
import TableLexer.Proofs.Ownership
import TableLexer.Proofs.Steering
import TableLexer.Proofs.LexemeIndex
import TableLexer.Proofs.Compiled
import TableLexer.Proofs.Runs
import TableLexer.Proofs.Ledger
import TableLexer.Proofs.Safety
import TableLexer.Proofs.Segments
import TableLexer.Proofs.Scanning
import TableLexer.Proofs.Lossless
import TableLexer.Proofs.Boundaries
import TableLexer.Proofs.Reference
import TableLexer.Proofs.Spelling
import TableLexer.Proofs.Bodies
import TableLexer.Proofs.Refinement
import TableLexer.Proofs.RuleChanges
import TableLexer.Proofs.Utf8
import TableLexer.Proofs.StoredParts
import TableLexer.Proofs.BinaryForm
import TableLexer.Proofs.JsonText
import TableLexer.Proofs.JsonForm
import TableLexer.Proofs.CaseRuns
import TableLexer.Proofs.CaseFolding
import TableLexer.Proofs.Answers
import TableLexer.Proofs.FailedReads
import TableLexer.Proofs.AlikeSources
import TableLexer.Proofs.ByteSources
import TableLexer.Proofs.Schedules
import TableLexer.Proofs.Histories
import TableLexer.Proofs.FileTrees
import TableLexer.Proofs.CompiledFiles
import TableLexer.Proofs.FirstTokens
import TableLexer.Proofs.CommentEnds
import TableLexer.Proofs.Coalescing
import TableLexer.Proofs.DamagedFiles
import TableLexer.Proofs.LexemeLookup
import TableLexer.Proofs.LiteralEnds
import TableLexer.Proofs.Registrations
import TableLexer.Proofs.NumberedNodes
import TableLexer.Proofs.Walks
import TableLexer.Proofs.Traversal
import TableLexer.Proofs.RuleFileForms
