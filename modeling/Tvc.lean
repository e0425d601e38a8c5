import Tvc.Actuation
import Tvc.Admission.Conservation
import Tvc.Admission.Cycle
import Tvc.Admission.Faults
import Tvc.Admission.Identity
import Tvc.Admission.Model
import Tvc.Admission.Order
import Tvc.Admission.Provenance
import Tvc.Admission.Selection
import Tvc.Admission.Steps
import Tvc.Admission.Window
import Tvc.Audit.Acceptance
import Tvc.Audit.Latency
import Tvc.Audit.Measured
import Tvc.Audit.Percentile
import Tvc.Audit.Steady
import Tvc.Audit.Tally
import Tvc.Audit.Terminal
import Tvc.Control
import Tvc.ControlBounds
import Tvc.Datagram
import Tvc.Drivers
import Tvc.Episode
import Tvc.Episode.Acknowledgement
import Tvc.Episode.Calls
import Tvc.Episode.Chronicle
import Tvc.Episode.Inert
import Tvc.Episode.Invariant
import Tvc.Episode.Limits
import Tvc.Episode.Replay
import Tvc.Episode.Sensing
import Tvc.Episode.Settling
import Tvc.Episode.Steps
import Tvc.EpisodeAgreement
import Tvc.EpisodeRef
import Tvc.ExitCode
import Tvc.Floats
import Tvc.Freerun.Accounts
import Tvc.Freerun.Body
import Tvc.Freerun.Bookkeeping
import Tvc.Freerun.CommandLine
import Tvc.Freerun.Cycles
import Tvc.Freerun.Draws
import Tvc.Freerun.Endings
import Tvc.Freerun.Handshake
import Tvc.Freerun.Measurement
import Tvc.Freerun.Nominal
import Tvc.Freerun.Pairing
import Tvc.Freerun.Process
import Tvc.Freerun.Receipt
import Tvc.Freerun.Residual
import Tvc.Freerun.Ruling
import Tvc.Freerun.Schedule
import Tvc.Freerun.Serving
import Tvc.Freerun.SimCopies
import Tvc.Freerun.SimEnd
import Tvc.Freerun.Simulator
import Tvc.Freerun.Turns
import Tvc.Freerun.VehicleCopies
import Tvc.Freerun.VehicleEnd
import Tvc.Freerun.Verdict
import Tvc.Freerun.World
import Tvc.GroundLink.Accounting
import Tvc.GroundLink.Check
import Tvc.GroundLink.Collect
import Tvc.GroundLink.Delivery
import Tvc.GroundLink.Process
import Tvc.GroundLink.Receiver
import Tvc.GroundLink.Streams
import Tvc.GroundWire
import Tvc.Harness.AllocGuard
import Tvc.Harness.CommandLine
import Tvc.Harness.ConfigString
import Tvc.Headless
import Tvc.HeadlessRun
import Tvc.Lib.Binary64
import Tvc.Lib.BoundedQueue
import Tvc.Lib.ByteStore
import Tvc.Lib.Checked
import Tvc.Lib.Circular
import Tvc.Lib.Crc
import Tvc.Lib.GreedyMatch
import Tvc.Lib.InOrder
import Tvc.Lib.Json
import Tvc.Lib.Layout
import Tvc.Lib.Machine
import Tvc.Lib.Mixing
import Tvc.Lib.Quantile
import Tvc.Lib.Resync
import Tvc.Lib.RunLength
import Tvc.Lib.RunningMax
import Tvc.Lib.Saturation
import Tvc.Lib.SerialNumber
import Tvc.Lib.Settings
import Tvc.Lib.SlotWindow
import Tvc.Lib.StopAndWait
import Tvc.Lib.Text
import Tvc.Lib.Thinning
import Tvc.Lockstep.Counters
import Tvc.Lockstep.ExactlyOnce
import Tvc.Lockstep.Exchange
import Tvc.Lockstep.Pair
import Tvc.Lockstep.Process
import Tvc.Lockstep.Projection
import Tvc.Lockstep.Refinement
import Tvc.Lockstep.Retry
import Tvc.Lockstep.Sensing
import Tvc.Lockstep.Serving
import Tvc.Lockstep.Session
import Tvc.Lockstep.Simulator
import Tvc.Lockstep.Wrap
import Tvc.Payload.Blocks
import Tvc.Payload.Ground
import Tvc.Payload.Vehicle
import Tvc.Recorder.Certificate
import Tvc.Recorder.Complete
import Tvc.Recorder.Drain
import Tvc.Recorder.Ending
import Tvc.Recorder.Invariant
import Tvc.Recorder.Reader
import Tvc.Ring
import Tvc.Rng
import Tvc.Simulator
import Tvc.Stream.Agreement
import Tvc.Stream.Burst
import Tvc.Stream.Checksum
import Tvc.Stream.Clean
import Tvc.Stream.Damage
import Tvc.Stream.Decoder
import Tvc.Stream.Frames
import Tvc.Stream.Gaps
import Tvc.Stream.Ground
import Tvc.Sweep.Accepted
import Tvc.Sweep.Audited
import Tvc.Sweep.Complete
import Tvc.Sweep.Invocation
import Tvc.Sweep.Labels
import Tvc.Sweep.Options
import Tvc.Sweep.Peered
import Tvc.Sweep.Plan
import Tvc.Sweep.Planned
import Tvc.Sweep.Roster
import Tvc.Sweep.RunRow
import Tvc.Telemetry
import Tvc.Trace
