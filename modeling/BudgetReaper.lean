import BudgetReaper.Cluster.Rule
import BudgetReaper.Log.Form
import BudgetReaper.Main
import BudgetReaper.Text.Lines
import BudgetReaper.Value.Reader
import BudgetReaper.Proofs.Bound
import BudgetReaper.Proofs.Budget
import BudgetReaper.Proofs.CrashLoop
import BudgetReaper.Proofs.Credentials
import BudgetReaper.Proofs.Gauge.History
import BudgetReaper.Proofs.Job.Configuration
import BudgetReaper.Proofs.Misconfiguration.Raising
import BudgetReaper.Proofs.Readiness
import BudgetReaper.Proofs.Reaping.Agreement
import BudgetReaper.Proofs.Reaping.Attribution
import BudgetReaper.Proofs.Reaping.Collision
import BudgetReaper.Proofs.Reaping.Containment
import BudgetReaper.Proofs.Reaping.Convergence
import BudgetReaper.Proofs.Reaping.Delivery
import BudgetReaper.Proofs.Reaping.Dispatch
import BudgetReaper.Proofs.Reaping.DryRun
import BudgetReaper.Proofs.Reaping.Exclusion
import BudgetReaper.Proofs.Reaping.Independence
import BudgetReaper.Proofs.Reaping.Inventory
import BudgetReaper.Proofs.Reaping.Loosening
import BudgetReaper.Proofs.Reaping.Order
import BudgetReaper.Proofs.Reaping.Rivals
import BudgetReaper.Proofs.Selector.Decoding
