import Vigil.Cancellation.Waiters
import Vigil.Eks.Connection
import Vigil.Eks.Subject
import Vigil.Log.Desk
import Vigil.Settings
import Vigil.Watch.Session
import Vigil.Text.Blank
import Vigil.Text.Digit
import Vigil.Proofs.Stream.Conservation
import Vigil.Proofs.Watch.Books
import Vigil.Proofs.Watch.Ledger
import Vigil.Proofs.Watch.Upkeep
import Vigil.Proofs.Watch.Account
import Vigil.Proofs.Watch.LastEvent
import Vigil.Proofs.Watch.Follower
import Vigil.Proofs.Eks.Garbled
import Vigil.Proofs.Watch.Promise
import Vigil.Proofs.Stream.Wakeup
import Vigil.Proofs.Watch.BackPressure
import Vigil.Proofs.Clock.Order
import Vigil.Proofs.Clock.Exact
import Vigil.Proofs.Cancellation.Reason
import Vigil.Proofs.Cancellation.Patience
import Vigil.Proofs.Watch.Heed
import Vigil.Proofs.Watch.Posting
import Vigil.Proofs.Watch.Farewell
import Vigil.Proofs.Stream.Readers
import Vigil.Proofs.Watch.Transcript
import Vigil.Proofs.Watch.Calm
import Vigil.Proofs.Watch.Liveness
import Vigil.Proofs.Watch.Agreement
import Vigil.Proofs.Watch.Absence
import Vigil.Proofs.Eks.Verdicts
import Vigil.Proofs.Stream.Shutdown
import Vigil.Proofs.Stream.Rounds
import Vigil.Proofs.Stream.FirstCome
import Vigil.Proofs.Stream.Withdrawal
import Vigil.Proofs.Watch.Guards
import Vigil.Proofs.Watch.Alert
import Vigil.Proofs.Watch.Timetable
import Vigil.Proofs.Watch.Cadence
import Vigil.Proofs.Watch.Punctual
import Vigil.Proofs.Watch.Journal
import Vigil.Proofs.Clock.Seconds
import Vigil.Proofs.Eks.Clients
import Vigil.Proofs.Watch.Budget
import Vigil.Proofs.Stream.Discretion
import Vigil.Proofs.Watch.Turns
import Vigil.Proofs.Watch.Likeness
import Vigil.Proofs.Watch.Echo
import Vigil.Proofs.Watch.Hook
import Vigil.Proofs.Eks.Blind
import Vigil.Proofs.Value.Overlay
import Vigil.Proofs.Value.Spelling
import Vigil.Proofs.Toml.Overlong
import Vigil.Proofs.Toml.Tidy
import Vigil.Proofs.Number.Word
import Vigil.Proofs.Number.Sign
import Vigil.Proofs.Number.Range
import Vigil.Proofs.Settings.Sections
import Vigil.Proofs.Settings.Checks
import Vigil.Proofs.Settings.Waits
import Vigil.Proofs.Settings.Escape
import Vigil.Proofs.Settings.Resolution
import Vigil.Proofs.Settings.Stray
import Vigil.Proofs.Failure.Wording
import Vigil.Proofs.Watch.Grace
import Vigil.Proofs.Watch.Entry
import Vigil.Proofs.Watch.Minutes
import Vigil.Proofs.Watch.Logbook
import Vigil.Proofs.Log.Levels
import Vigil.Proofs.Watch.Mirror
import Vigil.Proofs.Log.Removal
import Vigil.Proofs.Log.Hearing
import Vigil.Proofs.Watch.Pauses
import Vigil.Proofs.Stream.Recast
import Vigil.Proofs.Stream.Producers
import Vigil.Proofs.Stream.Consumers
import Vigil.Proofs.Stream.Flow
import Vigil.Proofs.Stream.Paces
