import ReadThrough.Main
import ReadThrough.Proofs.Pool.Accounts
import ReadThrough.Proofs.Store.Completing
import ReadThrough.Proofs.Store.Demand
import ReadThrough.Proofs.Store.Isolation
import ReadThrough.Proofs.System.Agreement
import ReadThrough.Proofs.System.AtMostOnce
import ReadThrough.Proofs.System.Orphans
import ReadThrough.Proofs.System.Pools
import ReadThrough.Proofs.System.Progress
import ReadThrough.Proofs.System.Returned
import ReadThrough.Proofs.System.Wakeup
import ReadThrough.Session.Terminal
import ReadThrough.Proofs.System.Gauge
import ReadThrough.Proofs.Notifier.Registry
import ReadThrough.Proofs.Notifier.Signals
import ReadThrough.Proofs.Store.Origins
import ReadThrough.Proofs.System.Registry
import ReadThrough.Proofs.System.Signals
import ReadThrough.Proofs.Call.Endings
import ReadThrough.Proofs.System.Aftermath
import ReadThrough.Proofs.Binary.Order
import ReadThrough.Proofs.Wire.Errands
import ReadThrough.Proofs.System.Settling
import ReadThrough.Proofs.System.Shutdown
import ReadThrough.Proofs.System.Soundness
import ReadThrough.Proofs.System.Fetching
import ReadThrough.Proofs.System.Pausing
import ReadThrough.Proofs.Store.Draining
import ReadThrough.Proofs.Store.Delivery
import ReadThrough.Proofs.Store.Independence
import ReadThrough.Proofs.Settings.Sources
import ReadThrough.Proofs.Wire.Scores
import ReadThrough.Proofs.Pool.Counting
import ReadThrough.Proofs.System.Coverage
import ReadThrough.Proofs.Store.Expiry
import ReadThrough.Proofs.Wire.Subscription
