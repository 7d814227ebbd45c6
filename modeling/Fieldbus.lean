import Fieldbus.Main
import Fieldbus.Segment.MemoryEngine
import Fieldbus.Stack.Recorded
import Fieldbus.Wording
import Fieldbus.Master.Scene
import Fieldbus.Proofs.Outcome
import Fieldbus.Proofs.Pdo.Transcript
import Fieldbus.Proofs.Pdo.Gapless
import Fieldbus.Proofs.Pdo.Resolve
import Fieldbus.Proofs.Bits
import Fieldbus.Proofs.Pdo.Write
import Fieldbus.Proofs.Value.Decoding
import Fieldbus.Proofs.Pdo.Frame
import Fieldbus.Proofs.Master.Footprint
import Fieldbus.Proofs.Master.Operation
import Fieldbus.Proofs.Master.Scene
import Fieldbus.Proofs.Master.Reachable
import Fieldbus.Proofs.FaultClass
import Fieldbus.Proofs.Wording
import Fieldbus.Proofs.Master.Check
import Fieldbus.Proofs.Master.Slots
import Fieldbus.Proofs.Dictionary.Discovery
import Fieldbus.Proofs.Master.Dictionary
import Fieldbus.Proofs.Master.Complete
import Fieldbus.Proofs.Master.Passes
import Fieldbus.Proofs.Master.GoingOperational
import Fieldbus.Proofs.Engine.Promises
import Fieldbus.Proofs.Master.Closing
import Fieldbus.Proofs.Master.Opening
import Fieldbus.Proofs.Engine.Delivery
import Fieldbus.Proofs.Master.Rest
import Fieldbus.Proofs.Dialogue
import Fieldbus.Proofs.Master.Rounds
import Fieldbus.Proofs.Engine.Ranges
import Fieldbus.Proofs.Engine.StackFootprint
import Fieldbus.Proofs.Engine.Arena
import Fieldbus.Proofs.Engine.Progress
import Fieldbus.Proofs.Engine.LaidOut
import Fieldbus.Proofs.Engine.MemoryImage
import Fieldbus.Proofs.Engine.StackImage
import Fieldbus.Proofs.Master.Images
import Fieldbus.Proofs.Master.Courses
import Fieldbus.Proofs.Master.Arena
import Fieldbus.Proofs.Master.Readiness
import Fieldbus.Proofs.Master.Queues
import Fieldbus.Proofs.Text.Utf8
import Fieldbus.Proofs.Value.RoundTrip
import Fieldbus.Proofs.Pdo.Readback
import Fieldbus.Proofs.Master.Values
import Fieldbus.Proofs.Couples
import Fieldbus.Proofs.Tables
import Fieldbus.Proofs.Pdo.Lookups
import Fieldbus.Proofs.Segment.Passing
import Fieldbus.Proofs.Segment.Stored
import Fieldbus.Proofs.Pdo.Assigning
import Fieldbus.Proofs.Pdo.Agreement
import Fieldbus.Proofs.Segment.Veil
import Fieldbus.Proofs.Master.Twins
import Fieldbus.Proofs.Master.Hidden
import Fieldbus.Proofs.Master.Isolation
import Fieldbus.Proofs.Text.WellFormed
import Fieldbus.Proofs.Number.Widening
import Fieldbus.Proofs.Value.Inverse
import Fieldbus.Proofs.Segment.Listing
import Fieldbus.Proofs.Master.Census
import Fieldbus.Proofs.Master.Accounting
import Fieldbus.Proofs.Master.Refused
import Fieldbus.Proofs.Log
import Fieldbus.Proofs.Engine.Logged
import Fieldbus.Proofs.Pdo.Labels
import Fieldbus.Proofs.Pdo.Carried
import Fieldbus.Proofs.Master.Timely
import Fieldbus.Proofs.Master.Order
import Fieldbus.Proofs.Text.Numerals
import Fieldbus.Proofs.Pdo.Described
import Fieldbus.Proofs.Master.Creation
import Fieldbus.Proofs.Master.Assigned
import Fieldbus.Proofs.Pdo.Refusals
import Fieldbus.Proofs.Pdo.Reading
import Fieldbus.Proofs.Pdo.Covered
import Fieldbus.Proofs.Number.Rounding
import Fieldbus.Proofs.Settings
import Fieldbus.Proofs.Dictionary.Completed
import Fieldbus.Proofs.Dictionary.Lookups
import Fieldbus.Proofs.Pdo.Loading
import Fieldbus.Proofs.Engine.Exchange
import Fieldbus.Proofs.Value.Checks
import Fieldbus.Proofs.Value.Encoding
import Fieldbus.Proofs.Master.Refreshing
import Fieldbus.Proofs.Master.Shutdown
import Fieldbus.Proofs.Text.Targets
import Fieldbus.Proofs.Number.Nearest
import Fieldbus.Proofs.Number.Narrowing
import Fieldbus.Proofs.Value.Float32
import Fieldbus.Proofs.Benchmark.Schedule
import Fieldbus.Proofs.Benchmark.Tallies
import Fieldbus.Proofs.Benchmark.Running
