import Vigil.Proofs.Watch.Control
import Vigil.Proofs.Watch.Offer
import Vigil.Proofs.Watch.Outcome

/-!
# The books of a run

Of all the state around a run, a few things tell which observations it made, which of them it
published and how it ended: its stream, its own registers, the results of its queries, the number of
queries that it began, and the instant at which it was over.  The notes it logs, the helpers of its
pauses and its clients do not enter the books.
-/

namespace Vigil.Watch

open Log (Note)
open Vigil.Stream (Traffic)

variable {τ ω : Type}

/-- The result of a query with the instant at which it came. -/
structure Reading (τ : Type) where
  instant : τ
  number : Nat
  result : Result

/-- The event that follows from a reading. -/
def Reading.outcome [Clock τ] (plan : Plan τ ω) (r : Reading τ) : Option (Event τ) :=
  Watch.outcome plan.config plan.strategy r.instant r.result

/-- What the journal says about the results of queries. -/
def Deed.reading? : τ × Deed τ ω → Option (Reading τ)
  | (instant, .answered number result) => some ⟨instant, number, result⟩
  | _ => none

/-- What the journal says about the end of the run. -/
def Deed.endedAt? : τ × Deed τ ω → Option τ
  | (instant, .ended _) => some instant
  | _ => none

/-- The books of a run. -/
structure Books (τ : Type) where
  now : τ
  traffic : Traffic PartyId (Event τ)
  run : Run τ
  /-- The results of the queries that were answered, in order. -/
  readings : List (Reading τ)
  /-- How many queries were begun. -/
  asked : Nat
  /-- The instant at which the run ended, once it has. -/
  endedAt : Option τ

namespace World

/-- The results of the queries that were answered so far, in order. -/
def readings (w : World τ ω) : List (Reading τ) := w.journal.filterMap Deed.reading?

/-- The instant at which the run ended, once it has. -/
def endedAt (w : World τ ω) : Option τ := (w.journal.filterMap Deed.endedAt?).getLast?

/-- The books that belong to a state. -/
def books (w : World τ ω) : Books τ :=
  ⟨w.now, w.traffic, w.run, w.readings, w.queryTimes.length, w.endedAt⟩

section Entries

variable (w : World τ ω)

theorem books_record_query (number : Nat) :
    (w.record (.query number)).books = { w.books with asked := w.books.asked + 1 } := by
  simp [books, record, readings, queryTimes, endedAt, Deed.reading?, Deed.endedAt?]

theorem books_record_answered (number : Nat) (result : Result) :
    (w.record (.answered number result)).books =
      { w.books with readings := w.books.readings ++ [⟨w.now, number, result⟩] } := by
  simp [books, record, readings, queryTimes, endedAt, Deed.reading?, Deed.endedAt?]

theorem books_record_ended (how : Ending) :
    (w.record (.ended how)).books = { w.books with endedAt := some w.now } := by
  simp [books, record, readings, queryTimes, endedAt, Deed.reading?, Deed.endedAt?]

/-- Deeds that are neither queries nor answers nor the end of the run do not enter the books. -/
theorem books_record_other {deed : Deed τ ω} (hquery : ∀ number, deed ≠ .query number)
    (hanswered : ∀ number result, deed ≠ .answered number result)
    (hended : ∀ how, deed ≠ .ended how) : (w.record deed).books = w.books := by
  cases deed with
  | query number => exact absurd rfl (hquery number)
  | answered number result => exact absurd rfl (hanswered number result)
  | ended how => exact absurd rfl (hended how)
  | _ => simp [books, record, readings, queryTimes, endedAt, Deed.reading?, Deed.endedAt?]

@[simp]
theorem books_note (note : Note) : (w.note note).books = w.books :=
  w.books_record_other nofun nofun nofun

@[simp]
theorem books_noteAll (notes : List Note) : (w.noteAll notes).books = w.books := by
  induction notes generalizing w with
  | nil => rfl
  | cons note notes ih =>
      change ((w.note note).noteAll notes).books = _
      rw [ih, books_note]

@[simp]
theorem books_trigger (t : Trigger) : (w.trigger t).books = w.books := by
  cases t <;> rfl

@[simp]
theorem books_triggers (triggers : List Trigger) :
    (triggers.foldl trigger w).books = w.books := by
  induction triggers generalizing w with
  | nil => rfl
  | cons t triggers ih => rw [List.foldl_cons, ih, books_trigger]

@[simp]
theorem books_openClient (plan : Plan τ ω) : (w.openClient plan).books = w.books := by
  rw [openClient]
  split_ifs <;> rfl

@[simp]
theorem books_closeClient (plan : Plan τ ω) : (w.closeClient plan).books = w.books := by
  rw [closeClient]
  split_ifs <;> rfl

@[simp]
theorem books_callHook (plan : Plan τ ω) (snapshot : Snapshot τ) :
    (w.callHook plan snapshot).books = w.books := by
  have hcalled : (w.record (.hookCalled snapshot)).books = w.books :=
    w.books_record_other nofun nofun nofun
  rw [callHook]
  split
  · rfl
  · dsimp only
    split <;> simp [hcalled]

@[simp]
theorem books_withHook (plan : Plan τ ω) (snapshot : Snapshot τ) :
    (w.withHook plan snapshot).books = w.books :=
  (books_noteAll _ _).trans (w.books_callHook plan snapshot)

theorem run_withHook (plan : Plan τ ω) (snapshot : Snapshot τ) :
    (w.withHook plan snapshot).run = w.run :=
  congrArg Books.run (w.books_withHook plan snapshot)

@[simp]
theorem books_goTo (phase : Phase τ) :
    (w.goTo phase).books = { w.books with run := { w.books.run with phase := phase } } := rfl

@[simp]
theorem books_finish (how : Ending) :
    (w.finish how).books =
      { w.books with
        run := { w.books.run with phase := .ended how }
        endedAt := some w.now } := by
  rw [finish, books_goTo, books_record_ended]

@[simp]
theorem books_callHelpers (pause : Nat) : (w.callHelpers pause).books = w.books := rfl

@[simp]
theorem books_dismissHelpers (pause : Nat) : (w.dismissHelpers pause).books = w.books := rfl

/-- Closing the stream changes nothing else. -/
theorem books_shut : w.shut.books = { w.books with traffic := w.shut.traffic } := by
  rw [shut]
  split <;> rfl

theorem books_shutWith (event : Event τ) :
    (w.shutWith event).books = { w.books with traffic := (w.shutWith event).traffic } := by
  rw [shutWith]
  split <;> rfl

/-- The state of a run that breaks because it cannot log something has the same books. -/
theorem Choke.books [Clock τ] [Wait ω] {plan : Plan τ ω} {w' : World τ ω} {p : Point ω}
    {d : Defect} (h : Choke plan w p w' d) : w'.books = w.books := by
  cases h with
  | complaint _ _ _ _ => exact w.books_callHook plan _
  | grace _ _ _ _ _ => exact w.books_withHook plan _
  | interrupt _ _ _ => exact w.books_closeClient plan
  | _ => rfl

end Entries

end World

end Vigil.Watch
