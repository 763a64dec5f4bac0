import CFactory.Access.HandOff
import CFactory.Access.Mcp
import CFactory.Audit.Serialised
import CFactory.Audit.Race
import CFactory.Audit.Report
import CFactory.Git.Addressable
import CFactory.Cards.Keys
import CFactory.Import.Apart
import CFactory.Import.Lease
import CFactory.Import.Selection
import CFactory.Import.WholeThreads
import CFactory.Sync.OneCard
import CFactory.Store.Annotations
import CFactory.Store.Concurrent
import CFactory.Store.Workers
import CFactory.Relay.Feed
import CFactory.Relay.Redelivery
import CFactory.Progress.Refresh
import CFactory.Intake.Fresh
import CFactory.Intake.Confirm
import CFactory.Intake.Payload
import CFactory.Intake.Promotion
import CFactory.Intake.Recipient
import CFactory.Intake.Settlement
import CFactory.Tenants.CredentialHost
import CFactory.Tenants.MintedToken
import CFactory.Cockpit.IssueLink
import CFactory.Cockpit.OptimisticPatch
import CFactory.Cockpit.TaskState
import CFactory.Tenants.Adoption
import CFactory.Tenants.Interrupted
import CFactory.Store.Series
import CFactory.Progress.PolledFacts
import CFactory.Base.Overwrites
import CFactory.Base.Sweep
import CFactory.Copilot.Sparkline
import CFactory.Base.Buckets
import CFactory.Copilot.WorkerTokens
import CFactory.Store.StallClock
import CFactory.Status.Substring
import CFactory.Base.Grouping
import CFactory.Process.PlanNode
import CFactory.Process.TestLanes
import CFactory.Base.Levels
import CFactory.Cockpit.TaskFlow
import CFactory.Cockpit.Waves
import CFactory.Cockpit.Layout
import CFactory.Intake.RepoRef
import CFactory.Intake.ActionChain
import CFactory.Base.Keyed
import CFactory.Import.Backoff
import CFactory.Providers.GitHub
import CFactory.Base.Paging
import CFactory.Providers.Issues
import CFactory.Providers.Comments
import CFactory.Providers.Paging
import CFactory.Access.Actor
import CFactory.Base.Fanout
import CFactory.Intake.Propose
import CFactory.Tenants.InstallRows
import CFactory.Tenants.InstallFlow
import CFactory.Tenants.InstallOrigin
