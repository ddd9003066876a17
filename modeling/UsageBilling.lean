import UsageBilling.Arena.Labelled
import UsageBilling.Logging
import UsageBilling.Run
import UsageBilling.Proofs.Sequencing
import UsageBilling.Proofs.Timeline.Activity
import UsageBilling.Proofs.Timeline.Places
import UsageBilling.Proofs.Timeline.RunIntervals
import UsageBilling.Proofs.Timeline.Walk
import UsageBilling.Proofs.Interval.Schedule
import UsageBilling.Proofs.Run.Acceptance
import UsageBilling.Proofs.Run.ActivityIntervals
import UsageBilling.Proofs.Calendar.LocalDate
import UsageBilling.Proofs.Run.Buckets
import UsageBilling.Proofs.Decimal.Rounding
import UsageBilling.Proofs.Decimal.Value
import UsageBilling.Proofs.Decimal.Sums
import UsageBilling.Proofs.Metering.Selection
import UsageBilling.Proofs.Interval.Reconciliation
import UsageBilling.Proofs.Interval.Repetition
import UsageBilling.Proofs.Run.Reconciliation
import UsageBilling.Proofs.Decimal.Sign
import UsageBilling.Proofs.Pricing.Charges
import UsageBilling.Proofs.Interval.Quantities
import UsageBilling.Proofs.Run.Conservation
import UsageBilling.Proofs.Interval.Growth
import UsageBilling.Proofs.Run.Growth
import UsageBilling.Proofs.Run.Incremental
import UsageBilling.Proofs.Decimal.Exact
import UsageBilling.Proofs.Run.Totals
import UsageBilling.Proofs.Run.History
import UsageBilling.Proofs.Interval.Targets
import UsageBilling.Proofs.Interval.Partition
import UsageBilling.Proofs.Run.Notification
import UsageBilling.Proofs.Calendar.Restart
import UsageBilling.Proofs.Correspondence
import UsageBilling.Proofs.Interval.Versions
import UsageBilling.Proofs.Interval.Building
import UsageBilling.Proofs.Timeline.SingleSection
import UsageBilling.Proofs.Interval.Division
import UsageBilling.Proofs.Run.Revision
import UsageBilling.Proofs.Decimal.Nearest
import UsageBilling.Proofs.Decimal.Quotient
import UsageBilling.Proofs.ItemFaults
import UsageBilling.Proofs.Pricing.Order
import UsageBilling.Proofs.Interval.Clipping
import UsageBilling.Proofs.Run.Clipping
import UsageBilling.Proofs.Interval.Lifecycle
import UsageBilling.Proofs.Timeline.Terms
import UsageBilling.Proofs.Run.Terms
import UsageBilling.Proofs.Interval.DetailModes
import UsageBilling.Proofs.Run.DetailModes
import UsageBilling.Proofs.Metering.TrackingIds
import UsageBilling.Proofs.Run.Consumption
import UsageBilling.Proofs.Decimal.Unrounded
import UsageBilling.Proofs.Interval.ItemOrder
import UsageBilling.Proofs.Run.InputOrder
import UsageBilling.Proofs.Interval.CatchUp
import UsageBilling.Proofs.Logging.Setup
import UsageBilling.Proofs.Timeline.SameInstants
import UsageBilling.Proofs.Interval.SameInstants
import UsageBilling.Proofs.Run.SameInstants
import UsageBilling.Proofs.Calendar.Alignment
import UsageBilling.Proofs.Calendar.Enumeration
import UsageBilling.Proofs.Decimal.Overflow
import UsageBilling.Proofs.Pricing.Due
import UsageBilling.Proofs.Decimal.Counting
import UsageBilling.Proofs.Pricing.Waterfall
import UsageBilling.Proofs.Timeline.InForce
import UsageBilling.Proofs.Interval.Governing
import UsageBilling.Proofs.Run.Governing
import UsageBilling.Proofs.Calendar.Traversal
import UsageBilling.Proofs.Interval.Termination
import UsageBilling.Proofs.Pricing.Capacity
import UsageBilling.Proofs.Faults
import UsageBilling.Proofs.Interval.Matching
import UsageBilling.Proofs.Arena.Lifecycle
import UsageBilling.Proofs.Run.DateOrder
import UsageBilling.Proofs.Emission
import UsageBilling.Proofs.Interval.Trail
import UsageBilling.Proofs.Run.Trail
import UsageBilling.Proofs.Logging.Nesting
import UsageBilling.Proofs.Text.Digits
import UsageBilling.Proofs.Decimal.Reading
import UsageBilling.Proofs.Text.JsonReading
import UsageBilling.Proofs.Text.JsonFields
import UsageBilling.Proofs.Interval.Details
import UsageBilling.Proofs.Run.Details
import UsageBilling.Proofs.Text.Capitals
import UsageBilling.Proofs.Calendar.ZoneNames
import UsageBilling.Proofs.Settings.Validation
