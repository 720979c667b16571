import UpdateBridge.Engine.Scripted
import UpdateBridge.Pool.Operation
import UpdateBridge.Supervision.Basic
import UpdateBridge.Main
import UpdateBridge.Proofs.Pool.Atomic
import UpdateBridge.Proofs.Pool.Consistency
import UpdateBridge.Proofs.Pool.Contents
import UpdateBridge.Proofs.Pool.Generation
import UpdateBridge.Proofs.Pool.Footprint
import UpdateBridge.Proofs.Pool.Nesting
import UpdateBridge.Proofs.Pool.Store
import UpdateBridge.Proofs.Exchange.Basic
import UpdateBridge.Proofs.Exchange.Integrity
import UpdateBridge.Proofs.Exchange.Ownership
import UpdateBridge.Proofs.Topic.Covering
import UpdateBridge.Proofs.Topic.Language
import UpdateBridge.Proofs.Route.Exclusive
import UpdateBridge.Proofs.Broker.Delivery
import UpdateBridge.Proofs.Broker.Enumeration
import UpdateBridge.Proofs.Broker.Subscriptions
import UpdateBridge.Proofs.UpdateTopics.Agreement
import UpdateBridge.Proofs.UpdateTopics.Granted
import UpdateBridge.Proofs.Client.Account
import UpdateBridge.Proofs.Client.Steady
import UpdateBridge.Proofs.Client.Safety
import UpdateBridge.Proofs.Client.History
import UpdateBridge.Proofs.Client.Deletion
import UpdateBridge.Proofs.Client.Timing
import UpdateBridge.Proofs.Client.Waiting
import UpdateBridge.Proofs.Telemetry.Course
import UpdateBridge.Proofs.Telemetry.Attempts
import UpdateBridge.Proofs.Telemetry.Schedule
import UpdateBridge.Proofs.Telemetry.Once
import UpdateBridge.Proofs.Telemetry.Diary
import UpdateBridge.Proofs.Telemetry.Cadence
import UpdateBridge.Proofs.Intake.Loans
import UpdateBridge.Proofs.Intake.Arrivals
import UpdateBridge.Proofs.Engine.Shift
import UpdateBridge.Proofs.Engine.Scripted
import UpdateBridge.Proofs.Engine.Stop
import UpdateBridge.Proofs.UpdateRun.Loss
import UpdateBridge.Proofs.UpdateRun.Trace
import UpdateBridge.Proofs.UpdateRun.Stop
import UpdateBridge.Proofs.UpdateRun.Subscriptions
import UpdateBridge.Proofs.Intake.Decision
import UpdateBridge.Proofs.Intake.Overload
import UpdateBridge.Proofs.Intake.Tally
import UpdateBridge.Proofs.Exchange.Depth
import UpdateBridge.Proofs.Engine.Attendance
import UpdateBridge.Proofs.Engine.Stream
import UpdateBridge.Proofs.Supervision.Timeline
import UpdateBridge.Proofs.Intake.Traffic
import UpdateBridge.Proofs.Route.Classification
import UpdateBridge.Proofs.Route.Shadowed
import UpdateBridge.Proofs.Engine.Reactions
import UpdateBridge.Proofs.Broker.History
import UpdateBridge.Proofs.Topic.Things
import UpdateBridge.Proofs.Topic.Devices
