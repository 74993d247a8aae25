import LogRelay.Capture.Muted
import LogRelay.Config.Reader
import LogRelay.Installed
import LogRelay.Proofs.Capture.Stopped
import LogRelay.Proofs.Config.Rearranged
import LogRelay.Proofs.Installed.Slot
import LogRelay.Proofs.Json.Canonical
import LogRelay.Proofs.Logger.Breakdown
import LogRelay.Proofs.Logger.Closing
import LogRelay.Proofs.Logger.Names
import LogRelay.Proofs.Logger.Phases
import LogRelay.Proofs.Logger.Routes
import LogRelay.Proofs.Logger.Shutdown
import LogRelay.Proofs.Logger.Thresholds
import LogRelay.Proofs.Message.Readers
import LogRelay.Proofs.Message.Slots
import LogRelay.Proofs.Message.Tolerant
import LogRelay.Proofs.Queue.Interleaving
import LogRelay.Proofs.RealtimeFlag.Guards
import LogRelay.Proofs.Registry.Custody
import LogRelay.Proofs.Sink.Apart
import LogRelay.Proofs.Sink.Counting
import LogRelay.Proofs.Sink.Refusing
import LogRelay.Proofs.Sink.Restarts
import LogRelay.Proofs.Sink.Rotated
import LogRelay.Proofs.Sink.Unrotated
import LogRelay.Proofs.Time.Stamps
import LogRelay.Proofs.Worker.Stopping
