import IndexCoverage.Log.Template
import IndexCoverage.Main
import IndexCoverage.Proofs.Coverage.Counting
import IndexCoverage.Proofs.Coverage.Grouping
import IndexCoverage.Proofs.Graph.Resolution
import IndexCoverage.Proofs.Plan.Targets
import IndexCoverage.Proofs.Source.Lexing
import IndexCoverage.Proofs.Source.Rescan
import IndexCoverage.Proofs.Disk.Editing
import IndexCoverage.Proofs.Graph.Checking
import IndexCoverage.Proofs.Coverage.Ordering
import IndexCoverage.Proofs.Number.Rounding
import IndexCoverage.Proofs.Coverage.Scores
import IndexCoverage.Proofs.Coverage.Growth
import IndexCoverage.Proofs.Plan.Places
import IndexCoverage.Proofs.Coverage.Once
import IndexCoverage.Proofs.Graph.Completeness
import IndexCoverage.Proofs.Log.Blind
import IndexCoverage.Proofs.Repo.Opening
import IndexCoverage.Proofs.Runner.Steps
import IndexCoverage.Proofs.Runner.History
import IndexCoverage.Proofs.Runner.Memory
import IndexCoverage.Proofs.Runner.Isolation
import IndexCoverage.Proofs.Source.CodeLines
import IndexCoverage.Proofs.Source.Joining
import IndexCoverage.Proofs.Runner.Standpoint
import IndexCoverage.Proofs.Service.Sending
import IndexCoverage.Proofs.CommandLine.Reading
import IndexCoverage.Proofs.Service.Agreement
import IndexCoverage.Proofs.Text.Order
import IndexCoverage.Proofs.Inventory.Order
import IndexCoverage.Proofs.Inventory.Listing
import IndexCoverage.Proofs.Coverage.Threshold
import IndexCoverage.Proofs.Disk.Names
import IndexCoverage.Proofs.Inventory.Reading
import IndexCoverage.Proofs.Coverage.Uncovered
import IndexCoverage.Proofs.Plan.Covering
import IndexCoverage.Proofs.Repo.Settled
import IndexCoverage.Proofs.Repo.Spelling
import IndexCoverage.Proofs.Repo.Reach
import IndexCoverage.Proofs.Repo.Refusal
import IndexCoverage.Proofs.Repo.Reopening
import IndexCoverage.Proofs.Settings.Reporting
import IndexCoverage.Proofs.Source.Unclosed
import IndexCoverage.Proofs.Graph.Confinement
import IndexCoverage.Proofs.Graph.Trimming
