import UCloudSandboxes.Migration.Ownership
import UCloudSandboxes.Admission.Charged
import UCloudSandboxes.Warden.Interrupted
import UCloudSandboxes.Routing.Isolation
import UCloudSandboxes.Registry.Fresh
import UCloudSandboxes.Registry.MountEpoch
import UCloudSandboxes.Admission.RequestFences
import UCloudSandboxes.Admission.GrowthAgreement
import UCloudSandboxes.Routing.WakeMigration
import UCloudSandboxes.Routing.Roots
import UCloudSandboxes.Relay.Wakes
import UCloudSandboxes.ExecFence.Exclusion
import UCloudSandboxes.Network.Exclusive
import UCloudSandboxes.Network.FirewallOrder
import UCloudSandboxes.Relay.Retries
import UCloudSandboxes.Gateway.Replays
import UCloudSandboxes.Gateway.GroupReplays
import UCloudSandboxes.Placement.Skew
import UCloudSandboxes.Registry.DiskCapacity
import UCloudSandboxes.Drain.StopProof
import UCloudSandboxes.Gateway.Boots
import UCloudSandboxes.Storage.Publishers
import UCloudSandboxes.Drain.ActivityClock
import UCloudSandboxes.Drain.StopJournal
import UCloudSandboxes.Memory.JournalWriter
import UCloudSandboxes.Storage.Remount
import UCloudSandboxes.Storage.Repeats
import UCloudSandboxes.Storage.Retention
import UCloudSandboxes.Storage.Devices
import UCloudSandboxes.Jobs.Reports
import UCloudSandboxes.Storage.DeviceSlots
import UCloudSandboxes.Waits.Scheduler
import UCloudSandboxes.Jobs.Signals
import UCloudSandboxes.PausePolicy.Plan
import UCloudSandboxes.Routing.Retirement
import UCloudSandboxes.Caches.SingleFlight
import UCloudSandboxes.Migration.Rollback
import UCloudSandboxes.Registry.GrowthBatch
import UCloudSandboxes.Routing.Programs
import UCloudSandboxes.Placement.Packing
import UCloudSandboxes.Storage.Eviction
import UCloudSandboxes.Storage.SnapshotChain
import UCloudSandboxes.Chunks.Pack
import UCloudSandboxes.Relay.Races
