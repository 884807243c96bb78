import OpenNode.AdministratorRuns
import OpenNode.AtMostOnce
import OpenNode.BackupPermits
import OpenNode.Billing
import OpenNode.CleanupRecovery
import OpenNode.CompensationOrder
import OpenNode.DatabaseRename
import OpenNode.DdnsIntent
import OpenNode.EffectiveRate
import OpenNode.EgressLoops
import OpenNode.ExternalRuns
import OpenNode.FederationTransport
import OpenNode.GuardedWrite
import OpenNode.LateRollback
import OpenNode.LifecycleResults
import OpenNode.LimiterUpdates
import OpenNode.NotificationRuns
import OpenNode.ReleaseSelection
import OpenNode.ReplayProtection
import OpenNode.RestoreSwitch
import OpenNode.RoutedRollback
import OpenNode.SubscriberRuns
import OpenNode.TakeoverAtomicity
import OpenNode.ExactCharges
import OpenNode.RemovalReferences
import OpenNode.CertificateRuns
import OpenNode.CombinedLinks
import OpenNode.IdentityRuns
import OpenNode.IngressRuns
import OpenNode.Warp
import OpenNode.AccessAgreement
import OpenNode.RecoveryMerge
import OpenNode.ServerResets
import OpenNode.UserResets
import OpenNode.CleanupReferences
import OpenNode.TemplateSubstitution
import OpenNode.SystemRoundTrip
import OpenNode.BackupManifest
import OpenNode.RuleLists
import OpenNode.SnapshotStore
import OpenNode.XrayBalance
import OpenNode.ChallengeRuns
import OpenNode.NginxConfinement
import OpenNode.SniffingReturns
import OpenNode.DeclaredListeners
import OpenNode.NodeManagement
import OpenNode.ServerSharing
import OpenNode.BackupCiphertext
import OpenNode.AddressBans
