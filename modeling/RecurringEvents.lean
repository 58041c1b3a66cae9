import RecurringEvents.Calendar.Elapsed
import RecurringEvents.Main
import RecurringEvents.Proofs.Calendar.Order
import RecurringEvents.Proofs.Zone.Turn
import RecurringEvents.Proofs.Zone.Season
import RecurringEvents.Proofs.Zone.Regular
import RecurringEvents.Proofs.Zone.Sound
import RecurringEvents.Proofs.Zone.Reading
import RecurringEvents.Proofs.Expansion.Progress
import RecurringEvents.Proofs.Outcome
import RecurringEvents.Proofs.Calendar.Months
import RecurringEvents.Proofs.Expansion.Success
import RecurringEvents.Proofs.Expansion.Move
import RecurringEvents.Proofs.Expansion.Selection
import RecurringEvents.Proofs.Zone.Gap
import RecurringEvents.Proofs.Expansion.Trace
import RecurringEvents.Proofs.Expansion.WallClock
import RecurringEvents.Proofs.Expansion.Totality
import RecurringEvents.Proofs.Text.Written
import RecurringEvents.Proofs.Moment.Token
import RecurringEvents.Proofs.Rule.Fields
import RecurringEvents.Proofs.Rule.Gathered
import RecurringEvents.Proofs.Rule.Draft
import RecurringEvents.Proofs.Rule.Values
import RecurringEvents.Proofs.Rule.RoundTrip
import RecurringEvents.Proofs.Expansion.Course
import RecurringEvents.Proofs.Zone.Later
import RecurringEvents.Proofs.Expansion.Limits
import RecurringEvents.Proofs.Expansion.Order
import RecurringEvents.Proofs.Expansion.Split
import RecurringEvents.Proofs.Expansion.Merge
import RecurringEvents.Proofs.Expansion.Identity
import RecurringEvents.Proofs.Moment.Settled
import RecurringEvents.Proofs.Expansion.SameSeries
import RecurringEvents.Proofs.Expansion.LastMoment
import RecurringEvents.Proofs.Expansion.Stored
import RecurringEvents.Proofs.Expansion.Added
import RecurringEvents.Proofs.Expansion.Filter
import RecurringEvents.Proofs.Expansion.Cut
import RecurringEvents.Proofs.Expansion.Batch
import RecurringEvents.Proofs.Expansion.Once
import RecurringEvents.Proofs.Moment.Passes
import RecurringEvents.Proofs.Expansion.TimeOrder
import RecurringEvents.Proofs.Expansion.Excluded
import RecurringEvents.Proofs.Expansion.Heap
import RecurringEvents.Proofs.Expansion.BatchOrder
import RecurringEvents.Proofs.Expansion.SameLists
import RecurringEvents.Proofs.Expansion.Passing
import RecurringEvents.Proofs.Expansion.Patience
import RecurringEvents.Proofs.Expansion.Weeks
import RecurringEvents.Proofs.Expansion.Periods
import RecurringEvents.Proofs.Expansion.Frequencies
import RecurringEvents.Proofs.Expansion.Bounds
import RecurringEvents.Proofs.Event
import RecurringEvents.Proofs.Expansion.Failure
import RecurringEvents.Proofs.Moment.Writing
import RecurringEvents.Proofs.Expansion.Writing
import RecurringEvents.Proofs.Expansion.Universal
import RecurringEvents.Proofs.Text.Trimmed
import RecurringEvents.Proofs.Rule.Keys
import RecurringEvents.Proofs.Rule.Segments
import RecurringEvents.Proofs.Rule.Checked
import RecurringEvents.Proofs.Text.Case
import RecurringEvents.Proofs.Rule.Items
import RecurringEvents.Proofs.Moment.Floating
import RecurringEvents.Proofs.Rule.Grammar
import RecurringEvents.Proofs.Moment.ClockText
import RecurringEvents.Proofs.Moment.WallClock
import RecurringEvents.Proofs.Rule.LastDay
import RecurringEvents.Proofs.Moment.Layout
import RecurringEvents.Proofs.Expansion.EmptyRange
import RecurringEvents.Proofs.CommandLine.Run
import RecurringEvents.Proofs.Calendar.Places
import RecurringEvents.Proofs.Expansion.WeekDays
import RecurringEvents.Proofs.Expansion.Candidates
import RecurringEvents.Proofs.Expansion.Enumeration
import RecurringEvents.Proofs.Expansion.Inherited
import RecurringEvents.Proofs.Text.Width
import RecurringEvents.Proofs.Moment.Forms
import RecurringEvents.Proofs.Moment.Encoded
import RecurringEvents.Proofs.Text.Folded
import RecurringEvents.Proofs.Rule.AsciiParts
import RecurringEvents.Proofs.Moment.Localized
import RecurringEvents.Proofs.Moment.ClockLayout
import RecurringEvents.Proofs.Iso.Day
import RecurringEvents.Proofs.Iso.Clock
import RecurringEvents.Proofs.Iso.Fields
import RecurringEvents.Proofs.Moment.ClockForms
import RecurringEvents.Proofs.Zone.Names
import RecurringEvents.Proofs.Text.Words
import RecurringEvents.Proofs.Rule.Phrases
import RecurringEvents.Proofs.Rule.DayPhrases
import RecurringEvents.Proofs.Rule.Description
import RecurringEvents.Proofs.Zone.Spelling
import RecurringEvents.Proofs.CommandLine.Arguments
import RecurringEvents.Proofs.CommandLine.Length
import RecurringEvents.Proofs.Settings.Lines
import RecurringEvents.Proofs.Settings.Loading
import RecurringEvents.Proofs.Settings.Refusal
import RecurringEvents.Proofs.Text.Numbers
import RecurringEvents.Proofs.Settings.Limits
import RecurringEvents.Proofs.Zone.Label
import RecurringEvents.Proofs.Iso.Stamp
import RecurringEvents.Proofs.Expansion.Finite
