import Switchover.CommandLine.Run
import Switchover.Evidence.Export
import Switchover.Main
import Switchover.Proofs.Bridge.Again
import Switchover.Proofs.Bridge.Components
import Switchover.Proofs.Bridge.Cuts
import Switchover.Proofs.Bridge.InOrder
import Switchover.Run.Schedule
import Switchover.Run.Simulation
import Switchover.Settings.Lookup
import Switchover.Testbed.Harness
import Switchover.Verdict.Report
import Switchover.Proofs.Capture.Chronology
import Switchover.Proofs.Capture.Copies
import Switchover.Proofs.Endpoint.Order
import Switchover.Proofs.Verdict.Composition
import Switchover.Proofs.Verdict.Loosening
import Switchover.Proofs.Verdict.Overlong
import Switchover.Proofs.Verdict.ZeroTolerance
import Switchover.Proofs.Traffic.Records
import Switchover.Proofs.Traffic.Coverage
import Switchover.Proofs.Run.Join
import Switchover.Proofs.Run.Order
import Switchover.Proofs.Testbed.Launch
import Switchover.Proofs.Testbed.Judgement
import Switchover.Proofs.Traffic.Unimpaired
import Switchover.Proofs.CommandLine.Agreement
import Switchover.Proofs.Capture.Reordering
import Switchover.Proofs.Verdict.Bursts
import Switchover.Proofs.Endpoint.Natural
import Switchover.Proofs.Endpoint.Edits
import Switchover.Proofs.Traffic.Copies
import Switchover.Proofs.Testbed.Honoured
import Switchover.Proofs.Run.Draining
import Switchover.Proofs.Verdict.Allowance
import Switchover.Proofs.Verdict.Block
import Switchover.Proofs.Verdict.Culprit
import Switchover.Proofs.Saved
import Switchover.Proofs.Evidence.Name
import Switchover.Proofs.CommandLine.Losses
import Switchover.Proofs.Settings.ReadBack
