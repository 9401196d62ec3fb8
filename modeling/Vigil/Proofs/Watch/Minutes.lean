import Vigil.Proofs.Watch.Entry
import Vigil.Proofs.Watch.Upkeep

/-!
# The minutes of a run

What the log of a run is compared with is in the same journal: the results of its queries, the calls
of its hook, and its first step.  Most of what a run does adds to none of them.
-/

namespace Vigil.Watch

open Log (Note)
open Vigil.Stream (Denial Reply Traffic)

variable {τ ω : Type}

/-! ### What the log is compared with -/

/-- The deed is the first step of a run. -/
def Deed.isFirst : Deed τ ω → Bool
  | .began => true
  | _ => false

/-- How a hook failed when it was called. -/
def Reaction.failure? : Reaction → Option Failure
  | .record => none
  | .trigger _ => none
  | .fail f => some f

/-- What the journal of a run says, as far as the log goes with it. -/
structure Minutes (τ : Type) where
  notes : List (τ × Note)
  readings : List (Reading τ)
  calls : List (τ × Snapshot τ)
  hasBegun : Bool
  graceDue : Bool

namespace World

/-- The run took its first step. -/
def hasBegun (w : World τ ω) : Bool := w.journal.any fun entry => entry.2.isFirst

/-- The minutes of a state. -/
def minutes (w : World τ ω) : Minutes τ :=
  ⟨w.notes, w.readings, w.hookCalls, w.hasBegun, w.run.graceDue⟩

section Minutes

variable (w : World τ ω)

theorem minutes_record_began :
    (w.record .began).minutes = { w.minutes with hasBegun := true } := by
  simp [minutes, record, notes, readings, hookCalls, hasBegun, Deed.reading?, Deed.isFirst]

theorem minutes_record_answered (number : Nat) (result : Result) :
    (w.record (.answered number result)).minutes =
      { w.minutes with readings := w.readings ++ [⟨w.now, number, result⟩] } := by
  simp [minutes, record, notes, readings, hookCalls, hasBegun, Deed.reading?, Deed.isFirst]

theorem minutes_record_hookCalled (snapshot : Snapshot τ) :
    (w.record (.hookCalled snapshot)).minutes =
      { w.minutes with calls := w.hookCalls ++ [(w.now, snapshot)] } := by
  simp [minutes, record, notes, readings, hookCalls, hasBegun, Deed.reading?, Deed.isFirst]

theorem minutes_note (n : Note) :
    (w.note n).minutes = { w.minutes with notes := w.notes ++ [(w.now, n)] } := by
  simp [minutes, note, record, notes, readings, hookCalls, hasBegun, Deed.reading?, Deed.isFirst]

@[simp]
theorem minutes_record_query (number : Nat) : (w.record (.query number)).minutes = w.minutes := by
  simp [minutes, record, notes, readings, hookCalls, hasBegun, Deed.reading?, Deed.isFirst]

@[simp]
theorem minutes_record_paused (delay : ω) : (w.record (.paused delay)).minutes = w.minutes := by
  simp [minutes, record, notes, readings, hookCalls, hasBegun, Deed.reading?, Deed.isFirst]

@[simp]
theorem minutes_record_ended (how : Ending) : (w.record (.ended how)).minutes = w.minutes := by
  simp [minutes, record, notes, readings, hookCalls, hasBegun, Deed.reading?, Deed.isFirst]

theorem minutes_noteAll (more : List Note) :
    (w.noteAll more).minutes = { w.minutes with notes := w.notes ++ more.map (w.now, ·) } := by
  induction more generalizing w with
  | nil => simp [noteAll, minutes]
  | cons n more ih =>
      have hnow : (w.note n).now = w.now := rfl
      have hnotes : (w.note n).notes = w.notes ++ [(w.now, n)] :=
        congrArg Minutes.notes (w.minutes_note n)
      change ((w.note n).noteAll more).minutes = _
      rw [ih, minutes_note, hnow, hnotes]
      simp

@[simp]
theorem minutes_trigger (t : Trigger) : (w.trigger t).minutes = w.minutes := by
  cases t <;> rfl

@[simp]
theorem minutes_triggers (triggers : List Trigger) :
    (triggers.foldl trigger w).minutes = w.minutes := by
  induction triggers generalizing w with
  | nil => rfl
  | cons t triggers ih => rw [List.foldl_cons, ih, minutes_trigger]

@[simp]
theorem minutes_openClient (plan : Plan τ ω) : (w.openClient plan).minutes = w.minutes := by
  rw [openClient]
  split_ifs <;> rfl

@[simp]
theorem minutes_closeClient (plan : Plan τ ω) : (w.closeClient plan).minutes = w.minutes := by
  rw [closeClient]
  split_ifs <;> rfl

@[simp]
theorem minutes_shut : w.shut.minutes = w.minutes := by
  rw [shut]
  split <;> rfl

@[simp]
theorem minutes_shutWith (event : Event τ) : (w.shutWith event).minutes = w.minutes := by
  rw [shutWith]
  split <;> rfl

@[simp]
theorem minutes_send (event : Event τ) : (w.send event).minutes = w.minutes := rfl

@[simp]
theorem minutes_goTo (phase : Phase τ) : (w.goTo phase).minutes = w.minutes := rfl

@[simp]
theorem minutes_finish (how : Ending) : (w.finish how).minutes = w.minutes := by
  rw [finish, minutes_goTo, minutes_record_ended]

@[simp]
theorem minutes_breakDown (how : Ending) : (w.breakDown how).minutes = w.minutes := by
  rw [breakDown, minutes_finish, minutes_shut]

@[simp]
theorem minutes_dismissHelpers (pause : Nat) : (w.dismissHelpers pause).minutes = w.minutes := rfl

theorem minutes_withFarewell (plan : Plan τ ω) :
    (w.withFarewell plan).minutes =
      { w.minutes with notes := w.notes ++ [(w.now, .warning "Poll task cancelled")] } := by
  rw [withFarewell, minutes_finish, minutes_shutWith, minutes_note]

@[simp]
theorem minutes_withQuery (plan : Plan τ ω) : (w.withQuery plan).minutes = w.minutes := by
  have hrun (w' : World τ ω) (queries : Nat) :
      { w' with run := { w'.run with queries := queries } }.minutes = w'.minutes := rfl
  rw [withQuery, hrun, minutes_openClient, minutes_record_query]

@[simp]
theorem minutes_withPause (delay : ω) : (w.withPause delay).minutes = w.minutes := by
  have hrun (w' : World τ ω) (pauses pause : Nat) :
      ({ w' with run := { w'.run with pauses := pauses } }.callHelpers pause).minutes =
        w'.minutes := rfl
  rw [withPause, hrun, minutes_record_paused]

theorem minutes_withAnswer (plan : Plan τ ω) (number : Nat) :
    (w.withAnswer plan number).minutes =
      { w.minutes with
        readings := w.readings ++
          [⟨w.now, number, plan.strategy.read (plan.services number).answer⟩] } := by
  let w' : World τ ω := ((plan.services number).triggers.foldl trigger w).closeClient plan
  have hminutes : w'.minutes = w.minutes := by
    rw [minutes_closeClient, minutes_triggers]
  have hreadings : w'.readings = w.readings := congrArg Minutes.readings hminutes
  have hnow : w'.now = w.now := by
    have hbooks : w'.books = w.books := by rw [books_closeClient, books_triggers]
    exact congrArg Books.now hbooks
  rw [withAnswer, minutes_record_answered, hminutes, hreadings, hnow]

theorem minutes_withBegin : w.withBegin.minutes = { w.minutes with hasBegun := true } :=
  minutes_record_began _

theorem minutes_withStart (line : Note) :
    (w.withStart line).minutes =
      { w.minutes with notes := w.notes ++ [(w.now, line)], hasBegun := true } := by
  have hbegan := w.minutes_withBegin
  have hnotes : w.withBegin.notes = w.notes := congrArg Minutes.notes hbegan
  rw [withStart, minutes_note, hbegan, hnotes]
  rfl

theorem minutes_withGrace (line : Note) :
    (w.withGrace line).minutes =
      { w.minutes with notes := w.notes ++ [(w.now, line)], graceDue := false } := by
  have hnoted := w.minutes_note line
  have hdue (w' : World τ ω) : { w' with run := { w.run with graceDue := false } }.minutes =
      { w'.minutes with graceDue := false } := rfl
  rw [withGrace, hdue, hnoted]

theorem minutes_callHook (plan : Plan τ ω) (snapshot : Snapshot τ) :
    (w.callHook plan snapshot).minutes =
      { w.minutes with
        calls := w.hookCalls ++ (plan.hook.map fun _ => (w.now, snapshot)).toList } := by
  rw [callHook]
  cases plan.hook with
  | none => simp [minutes]
  | some react =>
      have hcalled := w.minutes_record_hookCalled snapshot
      simp only [Option.map_some, Option.toList_some]
      cases react snapshot with
      | trigger t => exact (minutes_trigger _ t).trans hcalled
      | _ => exact hcalled

/-- What is logged of a call of the hook is its failure. -/
theorem complaints_eq (plan : Plan τ ω) (snapshot : Snapshot τ) :
    complaints plan snapshot =
      ((plan.hook.bind fun react => (react snapshot).failure?).map fun f =>
        ⟨.error, "Tick hook failed; continuing", some f⟩).toList := by
  rw [complaints]
  cases plan.hook with
  | none => rfl
  | some react => cases hreact : react snapshot <;> simp [hreact, Reaction.failure?]

theorem minutes_withHook (plan : Plan τ ω) (snapshot : Snapshot τ) :
    (w.withHook plan snapshot).minutes =
      { w.minutes with
        notes := w.notes ++ (complaints plan snapshot).map (w.now, ·)
        calls := w.hookCalls ++ (plan.hook.map fun _ => (w.now, snapshot)).toList } := by
  have hcalled := w.minutes_callHook plan snapshot
  have hnotes : (w.callHook plan snapshot).notes = w.notes := congrArg Minutes.notes hcalled
  rw [withHook, minutes_noteAll, hcalled, hnotes, now_callHook]

end Minutes

end World

end Vigil.Watch
