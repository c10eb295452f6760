import ComposeBastion.Jobs.Permanence
import ComposeBastion.Recovery.Exclusion
import ComposeBastion.Backup.Tamper
import ComposeBastion.Platform.Users
import ComposeBastion.Platform.Alerts
import ComposeBastion.Platform.HostThresholds
import ComposeBastion.Platform.AlertDelivery
import ComposeBastion.Platform.Schedules
import ComposeBastion.Recovery.RestoreReconciler
import ComposeBastion.Recovery.RestartObligation
import ComposeBastion.Recovery.PointDeletion
import ComposeBastion.Backup.DeletionProtocol
import ComposeBastion.Agent.Operations
import ComposeBastion.Jobs.RemoteMutation
import ComposeBastion.Recovery.StandaloneClone
import ComposeBastion.Backup.TargetBinding
import ComposeBastion.Recovery.ComposeCloneIsolation
import ComposeBastion.Recovery.LedgerSafety
import ComposeBastion.Docker.HostSpelling
import ComposeBastion.Docker.ScopeAliases
import ComposeBastion.Deployment.EnvironmentMerge
import ComposeBastion.Deployment.Interpolation
import ComposeBastion.Deployment.SecretRedaction
import ComposeBastion.Platform.Secrets
import ComposeBastion.Platform.PrivateAddress
import ComposeBastion.Docker.RegistryLookup
import ComposeBastion.Agent.Tokenizer
import ComposeBastion.Recovery.ClonePorts
import ComposeBastion.Recovery.RestorePlan
import ComposeBastion.Recovery.RestoreFolders
import ComposeBastion.Recovery.CaptureKeys
import ComposeBastion.Recovery.AttemptDirectories
import ComposeBastion.Deployment.GitComposeIntegrity
import ComposeBastion.Deployment.StackVersions
import ComposeBastion.Docker.ImageReference
import ComposeBastion.Recovery.BindMountDepth
import ComposeBastion.Recovery.ResidueSafety
import ComposeBastion.Platform.SessionSafety
import ComposeBastion.Platform.Migrations
