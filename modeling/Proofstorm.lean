import Proofstorm.Store.Exclusion
import Proofstorm.Store.Retained
import Proofstorm.Store.Receipts
import Proofstorm.Store.Sealed
import Proofstorm.Store.Previews
import Proofstorm.Prober.Freshness
import Proofstorm.Custody.Payloads
import Proofstorm.Custody.Capacity
import Proofstorm.Custody.Handoff
import Proofstorm.Actions.Calls
import Proofstorm.Actions.Closed
import Proofstorm.Actions.Replays
import Proofstorm.Building.Builds
import Proofstorm.Building.Final
import Proofstorm.Entries
import Proofstorm.Guarded
import Proofstorm.Identities.Kept
import Proofstorm.Lifecycle.Calls
import Proofstorm.Lifecycle.Fence
import Proofstorm.Lifecycle.Latest
import Proofstorm.Lifecycle.Versions
import Proofstorm.Plans.Compile
import Proofstorm.Plans.Published
import Proofstorm.Readiness.Conditions
import Proofstorm.Readiness.Deadlock
import Proofstorm.Rendering.Agreement
import Proofstorm.Roles
import Proofstorm.Store.Candidates
import Proofstorm.Store.DraftCalls
import Proofstorm.Store.DraftSteps
import Proofstorm.Store.Drafts
import Proofstorm.Tasks.Manager
import Proofstorm.Tasks.Once
import Proofstorm.Unstarted.Kept
import Proofstorm.Unstarted.Nothing
import Proofstorm.Updating.Applied
import Proofstorm.Upload.Calls
import Proofstorm.Upload.Once
import Proofstorm.Upload.Runs
import Proofstorm.Ascent
import Proofstorm.Base64
import Proofstorm.Core.Reading
import Proofstorm.Core.Values
import Proofstorm.Custody.Migrated
import Proofstorm.Prober.Fairness
import Proofstorm.Readiness.Expired
import Proofstorm.Readiness.Renewed
import Proofstorm.Store.Heals
import Proofstorm.Workspace.Requests
import Proofstorm.Workspace.Wire
import Proofstorm.Actions.Bounded
import Proofstorm.Candidates.Canonical
import Proofstorm.Following
import Proofstorm.Halting
import Proofstorm.Measured
import Proofstorm.Native.Projected
import Proofstorm.Prompt
import Proofstorm.Readiness.Admission
import Proofstorm.Readiness.Admitted
import Proofstorm.Readiness.Snapshot
import Proofstorm.Rendering.Added
import Proofstorm.Retirement.Daemon
import Proofstorm.Retirement.Grounds
import Proofstorm.Retirement.Quiet
import Proofstorm.Retirement.Removed
import Proofstorm.Retirement.Retired
import Proofstorm.Startup.Bound
import Proofstorm.Store.Access
import Proofstorm.Store.Builds
import Proofstorm.Store.Observed
import Proofstorm.Workspace.Delivered
import Proofstorm.Workspace.Pages
import Proofstorm.Store.Incarnations
