import DependencyAudit.Analysis.Session
import DependencyAudit.CommandLine.Run
import DependencyAudit.Main
import DependencyAudit.Proofs.Analysis
import DependencyAudit.Proofs.CommandLine.Removals
import DependencyAudit.Proofs.Import.Static
import DependencyAudit.Proofs.Import.Appending
import DependencyAudit.Proofs.Import.Declaration
import DependencyAudit.Proofs.Manifest.Loading
import DependencyAudit.Proofs.Analysis.Order
import DependencyAudit.Proofs.Analysis.Session
import DependencyAudit.Proofs.Report.Document
import DependencyAudit.Proofs.Report.Lines
import DependencyAudit.Proofs.Exclusion.Precedence
import DependencyAudit.Proofs.Scan.Pruning
import DependencyAudit.Proofs.Scan.Forbidden
import DependencyAudit.Proofs.Removal.Session
import DependencyAudit.Proofs.CommandLine.Output
import DependencyAudit.Proofs.CommandLine.Escapes
import DependencyAudit.Proofs.Analysis.Unscanned
import DependencyAudit.Proofs.Analysis.Agreement
import DependencyAudit.Proofs.CommandLine.Moving
import DependencyAudit.Proofs.Import.Calls
import DependencyAudit.Proofs.Import.Statements
import DependencyAudit.Proofs.Analysis.Ignoring
import DependencyAudit.Proofs.Analysis.Growing
import DependencyAudit.Proofs.Analysis.Literal
import DependencyAudit.Proofs.Removal.Warnings
import DependencyAudit.Proofs.Report.Verbatim
import DependencyAudit.Proofs.CommandLine.Feeding
