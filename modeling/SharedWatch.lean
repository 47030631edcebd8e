import SharedWatch.Json.Reader
import SharedWatch.Json.Settings
import SharedWatch.Json.Writer
import SharedWatch.Layers.Load
import SharedWatch.Proofs.HandlerAccounts
import SharedWatch.Proofs.InterveningChanges
import SharedWatch.Proofs.References
import SharedWatch.Scenario.Session
import SharedWatch.Proofs.ObjectOrigins
import SharedWatch.Proofs.HandlerViews
import SharedWatch.Proofs.DeedTellings
import SharedWatch.Proofs.StoreMirroring
import SharedWatch.Proofs.CacheSnapshots
import SharedWatch.Proofs.WatchYields
import SharedWatch.Proofs.ReferenceMoves
import SharedWatch.Proofs.ReferenceTally
import SharedWatch.Proofs.ReferenceTallyKept
import SharedWatch.Proofs.Registrations
import SharedWatch.Proofs.RegistrationsGauge
import SharedWatch.Proofs.DroppedSubscribers
import SharedWatch.Proofs.StreamLifecycle
import SharedWatch.Proofs.OwnerReferences
import SharedWatch.Proofs.Shutdown
import SharedWatch.Proofs.Isolation
import SharedWatch.Proofs.RunningLoopsGauge
import SharedWatch.Proofs.Reconnection
import SharedWatch.Proofs.CurrentReading
import SharedWatch.Proofs.UselessRegistrations
import SharedWatch.Proofs.SyncWaitOutcomes
import SharedWatch.Proofs.OwnerDepartures
import SharedWatch.Proofs.RetryPacing
import SharedWatch.Proofs.Connections
import SharedWatch.Proofs.StreamJoining
import SharedWatch.Proofs.ForeignObjects
import SharedWatch.Proofs.StoreCoherence
import SharedWatch.Proofs.Loading
