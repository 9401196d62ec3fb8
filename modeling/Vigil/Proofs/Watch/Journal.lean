import Vigil.Proofs.Watch.Control

/-!
# Searching a journal

Whoever searches a journal for deeds of one kind reads on over all others.  Notes are of no such
kind, and much of what a run does is no deed at all.  So most of what a run does makes no difference
to what is found.
-/

namespace Vigil.Watch

open Log (Note)

variable {τ ω α : Type}

/-- The observation that a deed tells the hook of. -/
def Deed.told? : Deed τ ω → Option (Snapshot τ)
  | .hookCalled snapshot => some snapshot
  | _ => none

/-- A way to search a journal, for anything but notes. -/
structure Search (τ ω α : Type) where
  find : τ × Deed τ ω → Option α
  noted (instant : τ) (note : Note) : find (instant, .noted note) = none

namespace World

/-- What is found in the journal of a run, in order. -/
def found (search : Search τ ω α) (w : World τ ω) : List α := w.journal.filterMap search.find

section Found

variable (search : Search τ ω α) (w : World τ ω)

theorem found_record (deed : Deed τ ω) :
    (w.record deed).found search = w.found search ++ (search.find (w.now, deed)).toList := by
  cases hfind : search.find (w.now, deed) <;> simp [found, record, hfind]

theorem found_record_other {deed : Deed τ ω} (hother : search.find (w.now, deed) = none) :
    (w.record deed).found search = w.found search := by
  rw [found_record, hother, Option.toList_none, List.append_nil]

@[simp]
theorem found_note (note : Note) : (w.note note).found search = w.found search :=
  w.found_record_other search (search.noted w.now note)

@[simp]
theorem found_noteAll (notes : List Note) : (w.noteAll notes).found search = w.found search := by
  induction notes generalizing w with
  | nil => rfl
  | cons note notes ih => exact (ih (w.note note)).trans (w.found_note search note)

@[simp]
theorem found_trigger (t : Trigger) : (w.trigger t).found search = w.found search := by
  cases t <;> rfl

@[simp]
theorem found_triggers (triggers : List Trigger) :
    (triggers.foldl trigger w).found search = w.found search := by
  induction triggers generalizing w with
  | nil => rfl
  | cons t triggers ih => exact (ih (w.trigger t)).trans (w.found_trigger search t)

@[simp]
theorem found_openClient (plan : Plan τ ω) : (w.openClient plan).found search = w.found search := by
  rw [openClient]
  split_ifs <;> rfl

@[simp]
theorem found_closeClient (plan : Plan τ ω) :
    (w.closeClient plan).found search = w.found search := by
  rw [closeClient]
  split_ifs <;> rfl

@[simp]
theorem found_shut : w.shut.found search = w.found search := by
  rw [shut]
  split <;> rfl

@[simp]
theorem found_shutWith (event : Event τ) : (w.shutWith event).found search = w.found search := by
  rw [shutWith]
  split <;> rfl

@[simp]
theorem found_send (event : Event τ) : (w.send event).found search = w.found search := rfl

@[simp]
theorem found_goTo (phase : Phase τ) : (w.goTo phase).found search = w.found search := rfl

/-- If there is a hook, its call is written down. -/
theorem found_callHook (plan : Plan τ ω) (snapshot : Snapshot τ) :
    (w.callHook plan snapshot).found search =
      if plan.hook.isSome then (w.record (.hookCalled snapshot)).found search
      else w.found search := by
  cases hhook : plan.hook with
  | none => simp only [callHook, hhook, Option.isSome_none, Bool.false_eq_true, if_false]
  | some hook =>
      simp only [callHook, hhook, Option.isSome_some, if_true]
      cases hook snapshot <;> simp

theorem found_withHook (plan : Plan τ ω) (snapshot : Snapshot τ) :
    (w.withHook plan snapshot).found search =
      if plan.hook.isSome then (w.record (.hookCalled snapshot)).found search
      else w.found search :=
  (found_noteAll search _ _).trans (w.found_callHook search plan snapshot)

variable {w} in
/-- A run that breaks because it cannot log something has at most called its hook before. -/
theorem Choke.found [Clock τ] [Wait ω] {plan : Plan τ ω} {w' : World τ ω} {p : Point ω}
    {d : Defect} (h : Choke plan w p w' d)
    (hother : ∀ snapshot, search.find (w.now, .hookCalled snapshot) = none) :
    w'.found search = w.found search := by
  have hcalled (snapshot : Snapshot τ) :
      (w.record (.hookCalled snapshot)).found search = w.found search :=
    w.found_record_other search (hother snapshot)
  cases h with
  | complaint _ _ _ _ => rw [found_callHook, hcalled, ite_self]
  | grace _ _ _ _ _ => rw [found_withHook, hcalled, ite_self]
  | interrupt _ _ _ => exact w.found_closeClient search plan
  | _ => rfl

end Found

end World

end Vigil.Watch
