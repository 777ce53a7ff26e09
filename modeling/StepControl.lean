import StepControl.Bench.Requests
import StepControl.Bench.Gate
import StepControl.Bench.Timer
import StepControl.Json.Codec
import StepControl.Json.Text
import StepControl.Sorted
import StepControl.Proofs.Gives
import StepControl.Proofs.Moves
import StepControl.Proofs.Performing
import StepControl.Proofs.Runs
import StepControl.Proofs.AtRest
import StepControl.Proofs.Account
import StepControl.Proofs.CallProtocol
import StepControl.Proofs.Oblivious
import StepControl.Proofs.SessionRuns
import StepControl.Proofs.Serial
import StepControl.Proofs.Histories
import StepControl.Proofs.Turns
import StepControl.Proofs.Readers
import StepControl.Proofs.Deadlines
import StepControl.Proofs.Refusals
import StepControl.Proofs.Alike
import StepControl.Proofs.FreshSession
import StepControl.Proofs.HandStepping
import StepControl.Proofs.Breakdowns
import StepControl.Proofs.Containment
import StepControl.Proofs.Complaints
import StepControl.Proofs.Settling
import StepControl.Proofs.Cadence
import StepControl.Proofs.Sleeping
import StepControl.Proofs.Declining
import StepControl.Proofs.Clients
import StepControl.Proofs.Insertions
import StepControl.Proofs.Bursts
import StepControl.Proofs.Handover
import StepControl.Proofs.Formats
import StepControl.Proofs.Onlookers
import StepControl.Proofs.Drift
import StepControl.Proofs.CatchingUp
import StepControl.Proofs.Reporting
import StepControl.Proofs.Restarting
import StepControl.Proofs.Waiting
import StepControl.Proofs.Settings
import StepControl.Proofs.Offers
import StepControl.Proofs.Numerals
import StepControl.Proofs.Delays
import StepControl.Proofs.Records
import StepControl.Proofs.AuditTrail
import StepControl.Proofs.Guards
