import TapAudit.Auditor
import TapAudit.FileTree
import TapAudit.Invariant
import TapAudit.Main
import TapAudit.Number.Literal
import TapAudit.Number.Shortest
import TapAudit.Path
import TapAudit.Proofs.Audit.Collection
import TapAudit.Proofs.Audit.InlineData
import TapAudit.Proofs.Audit.Regression
import TapAudit.Proofs.Audit.Strictness
import TapAudit.Proofs.Config
import TapAudit.Proofs.Exchange
import TapAudit.Proofs.History.Answering
import TapAudit.Proofs.History.Remembering
import TapAudit.Proofs.Invariant.Problems
import TapAudit.Proofs.Report.Document
import TapAudit.Proofs.Report.ExitCode
import TapAudit.Proofs.Script.Detection
import TapAudit.Proofs.Script.EndMarker
import TapAudit.Proofs.Script.MarkerLine
import TapAudit.Proofs.Script.NormalForm
import TapAudit.Proofs.Script.Rendering
import TapAudit.Proofs.Script.Reworded
import TapAudit.Proofs.Structure.Order
import TapAudit.Proofs.Version.Agreement
import TapAudit.Proofs.Version.Derived
import TapAudit.Report.Document
import TapAudit.Report.Explanation
import TapAudit.Report.Summary
import TapAudit.Script.Walk
import TapAudit.Structure.Order
import TapAudit.Structure.Placement
import TapAudit.Text.Blank
import TapAudit.Text.Digit
import TapAudit.Text.Letter
import TapAudit.Text.Lines
import TapAudit.Text.Lower
import TapAudit.Text.Printable
import TapAudit.Text.Quoted
import TapAudit.Text.Search
import TapAudit.Text.Utf8
import TapAudit.Text.Word
import TapAudit.Toml.Document
import TapAudit.Url
import TapAudit.Version.Comparison
import TapAudit.Version.Download
