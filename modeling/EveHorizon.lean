import EveHorizon.Ledger.Consistency
import EveHorizon.Usage.Windows
import EveHorizon.Events.Firing
import EveHorizon.OrgFs.Confinement
import EveHorizon.Loop.SlotConservation
import EveHorizon.Access.MergeOrder
import EveHorizon.Loop.Starvation
import EveHorizon.Loop.Containers
import EveHorizon.Batches.Promotion
import EveHorizon.MagicLinks.SingleUse
import EveHorizon.Workspaces.Ownership
import EveHorizon.OrgFs.ReadConfinement
import EveHorizon.Webhooks.Deliveries
import EveHorizon.Webhooks.Patterns
import EveHorizon.AppLinks.Grants
import EveHorizon.OrgDocuments.LostUpdates
import EveHorizon.Pipelines.TokenDelegation
import EveHorizon.Pipelines.DryRuns
import EveHorizon.Events.Cron
import EveHorizon.Events.Chains
import EveHorizon.Costs.Snapshots
import EveHorizon.Health.WatchdogSoundness
import EveHorizon.Pipelines.StatusAgreement
import EveHorizon.Loop.RetryBudget
import EveHorizon.Auth.Revocation
import EveHorizon.Auth.ResolverAgreement
import EveHorizon.Auth.Tenancy
import EveHorizon.Sync.ReviewGate
import EveHorizon.Sync.OneSidedEdits
import EveHorizon.Dependencies.Cycles
import EveHorizon.EnvDb.ReadOnly
import EveHorizon.EnvDb.ScopeEnforcement
import EveHorizon.EnvDb.AppliedOnce
import EveHorizon.Invites.SingleUse
import EveHorizon.Secrets.Resolution
import EveHorizon.Batches.Ordering
import EveHorizon.Loop.Verdicts
import EveHorizon.Workflows.Coherence
import EveHorizon.Access.PathPatterns
import EveHorizon.Pipelines.Selection
import EveHorizon.Auth.Explanations
import EveHorizon.Workflows.ProfileFallback
import EveHorizon.OrgDocuments.Listings
import EveHorizon.Kubernetes.Validity
import EveHorizon.OrgFs.LinkScopes
