import Vigil.Proofs.Clock.Order
import Vigil.Proofs.Watch.Guards
import Vigil.Proofs.Watch.Journal

/-!
# The timetable of a watch

A run pauses after each event that does not end the watch.  How long it pauses follows from the
event and from whether an observation came before, and the next query is due when the pause is over.
This is the timetable; here it is written down by itself, beside what the journal of a run says
about its pauses, so that the two can be compared.
-/

namespace Vigil.Watch

open Log (Note)

variable {τ ω : Type}

/-! ### The rule -/

section Rule

variable [Wait ω]

/-- How long a run pauses after an event: for the longer of both waits after the first observation
of the resource, and for the interval after anything else. -/
def delayAfter (config : WaitConfig ω) (earlier : List (Event τ)) (event : Event τ) : ω :=
  if event.kind = .progress ∧ ∀ e ∈ earlier, e.kind ≠ .progress then
    Wait.longer config.initialWait config.pollInterval
  else config.pollInterval

/-- A run has something to log between the acceptance of an event and the pause after it: that its
hook failed, or that the grace period begins. -/
def SpeaksAfter (plan : Plan τ ω) (earlier : List (Event τ)) (event : Event τ) : Prop :=
  ∃ snapshot, event = .progress snapshot ∧
    (World.complaints plan snapshot ≠ [] ∨ ∀ e ∈ earlier, e.kind ≠ .progress)

/-- The pauses after some events: each begins at the instant of its event. -/
def schedule (config : WaitConfig ω) (heard : List (τ × Event τ)) : List (τ × ω) :=
  heard.mapIdx fun number entry =>
    (entry.1, delayAfter config ((heard.take number).map Prod.snd) entry.2)

theorem schedule_concat (config : WaitConfig ω) (heard : List (τ × Event τ)) (instant : τ)
    (event : Event τ) :
    schedule config (heard ++ [(instant, event)]) =
      schedule config heard ++ [(instant, delayAfter config (heard.map Prod.snd) event)] := by
  have hearlier : (heard.mapIdx fun number entry =>
      (entry.1, delayAfter config (((heard ++ [(instant, event)]).take number).map Prod.snd)
        entry.2)) = schedule config heard := by
    refine List.mapIdx_eq_mapIdx_iff.mpr fun number hnumber => ?_
    rw [List.take_append_of_le_length hnumber.le]
  rw [schedule, List.mapIdx_concat, hearlier, List.take_left]

/-- The interval follows whatever is no observation. -/
theorem delayAfter_of_ne {config : WaitConfig ω} {earlier : List (Event τ)} {event : Event τ}
    (hkind : event.kind ≠ .progress) : delayAfter config earlier event = config.pollInterval :=
  if_neg fun h => hkind h.1

/-- The grace period is not used twice. -/
theorem delayAfter_of_mem {config : WaitConfig ω} {earlier : List (Event τ)} {e event : Event τ}
    (hmember : e ∈ earlier) (hkind : e.kind = .progress) :
    delayAfter config earlier event = config.pollInterval :=
  if_neg fun h => h.2 e hmember hkind

/-- All pauses but one at most are as long as the interval. -/
theorem schedule_interval (config : WaitConfig ω) (heard : List (τ × Event τ)) :
    ∃ number : Nat, ∀ (other : Nat) begun delay, other ≠ number →
      (schedule config heard)[other]? = some (begun, delay) → delay = config.pollInterval := by
  refine ⟨heard.findIdx fun entry => entry.2.kind = .progress, ?_⟩
  intro other begun delay hother hpause
  rw [schedule, List.getElem?_mapIdx, Option.map_eq_some_iff] at hpause
  obtain ⟨entry, hentry, heq⟩ := hpause
  obtain ⟨_, rfl⟩ := Prod.mk.inj heq
  obtain ⟨hlength, rfl⟩ := List.getElem?_eq_some_iff.mp hentry
  rcases Nat.lt_or_gt_of_ne hother with hearlier | hlater
  · have hkind := List.not_of_lt_findIdx hearlier
    rw [decide_eq_false_iff_not] at hkind
    exact delayAfter_of_ne hkind
  · -- the first observation came before
    have hfirst := hlater.trans hlength
    have hkind := List.findIdx_getElem (w := hfirst)
    rw [decide_eq_true_eq] at hkind
    have hmember : heard[heard.findIdx fun entry => entry.2.kind = .progress] ∈
        heard.take other := by
      rw [List.mem_take_iff_getElem]
      exact ⟨_, lt_min hlater hfirst, rfl⟩
    exact delayAfter_of_mem (List.mem_map_of_mem hmember) hkind

end Rule

/-- A query begins at an instant that is due after a pause of some length: at once if the pause
takes no time, and otherwise when the timer of the pause rings, which is set for the end of the
pause.  The clock does not go past that. -/
inductive Resumes [Clock τ] [Wait ω] [Spans ω τ] (begun : τ) (delay : ω) (instant : τ) : Prop
  | atOnce (nothing : Wait.isPositive delay = false) (same : instant = begun)
  | later {span : τ} (positive : Wait.isPositive delay = true)
      (countable : (Spans.span? delay : Option τ) = some span)
      (reached : Clock.reached instant (Clock.add begun span) = true)
      (punctual : instant = begun ∨ Clock.lt (Clock.add begun span) instant = false)

/-- A wait above zero does not lead back in time. -/
class ForwardSpans (ω τ : Type) [Clock τ] [Wait ω] [Spans ω τ] : Prop where
  not_lt {now span : τ} {delay : ω} : Wait.isPositive delay = true →
    Spans.span? delay = some span → Clock.lt (Clock.add now span) now = false

instance : ForwardSpans Int Int where
  not_lt {now span delay} hpositive hspan := by
    obtain rfl := Option.some.inj hspan
    simp only [Wait.isPositive, decide_eq_true_eq] at hpositive
    simp only [Clock.lt, Clock.add, decide_eq_false_iff_not]
    omega

/-- On an exact clock a query begins at the very end of the pause. -/
theorem Resumes.eq_add [Clock τ] [Wait ω] [Spans ω τ] [ExactClock τ] [ForwardSpans ω τ]
    {begun instant span : τ} {delay : ω} (h : Resumes begun delay instant)
    (hpositive : Wait.isPositive delay = true)
    (hspan : (Spans.span? delay : Option τ) = some span) : instant = Clock.add begun span := by
  cases h with
  | atOnce nothing _ =>
      rw [hpositive] at nothing
      cases nothing
  | later _ countable reached punctual =>
      obtain rfl := Option.some.inj (countable.symm.trans hspan)
      rcases punctual with rfl | hkept
      · exact ExactClock.antisymm reached (ForwardSpans.not_lt hpositive hspan)
      · exact ExactClock.antisymm reached hkept

/-! ### What the journal says about pauses -/

def Point.isPausing : Point ω → Bool
  | .pausing _ => true
  | _ => false

def Point.isAsked : Point ω → Bool
  | .asked _ => true
  | _ => false

/-- What the journal says about pauses. -/
def Deed.pause? : τ × Deed τ ω → Option (τ × ω)
  | (instant, .paused delay) => some (instant, delay)
  | _ => none

namespace World

/-- The pauses of a run, each with the instant at which it began and its length, in order. -/
def pauses (w : World τ ω) : List (τ × ω) := w.journal.filterMap Deed.pause?

/-- Looking for pauses in a journal. -/
def pauseSearch : Search τ ω (τ × ω) := ⟨Deed.pause?, fun _ _ => rfl⟩

theorem pauses_record_paused (w : World τ ω) (delay : ω) :
    (w.record (.paused delay)).pauses = w.pauses ++ [(w.now, delay)] :=
  w.found_record pauseSearch (.paused delay)

variable [Clock τ] [Wait ω] [Spans ω τ] {plan : Plan τ ω} {w w' : World τ ω} {p p' : Point ω}

omit [Spans ω τ] in
theorem Choke.isPausing_eq {d : Defect} (h : Choke plan w p w' d) : p.isPausing = false := by
  cases h <;> rfl

/-- A pause is written down when it begins. -/
theorem Move.pauses_eq (h : Move plan w p p' w') (hpausing : p.isPausing = false) :
    w'.pauses = w.pauses := by
  have hother (w : World τ ω) {deed : Deed τ ω} (hdeed : Deed.pause? (w.now, deed) = none) :
      (w.record deed).found pauseSearch = w.found pauseSearch :=
    w.found_record_other pauseSearch hdeed
  have hfinish (w : World τ ω) (how : Ending) :
      (w.finish how).found pauseSearch = w.found pauseSearch := hother w rfl
  have hcall (w : World τ ω) (snapshot : Snapshot τ) :
      (w.withHook plan snapshot).found pauseSearch = w.found pauseSearch := by
    rw [found_withHook, hother w rfl, ite_self]
  change w'.found pauseSearch = w.found pauseSearch
  cases h with
  | sleep _ _ => cases hpausing
  | overrun _ _ => cases hpausing
  | hurry _ => cases hpausing
  | ask _ => exact (found_openClient pauseSearch _ plan).trans (hother w rfl)
  | answer => rw [withAnswer, hother _ rfl, found_closeClient, found_triggers]
  | start _ _ _ _ =>
      rw [withStart, found_note]
      exact hother _ rfl
  | mute _ _ _ => exact (hfinish _ _).trans (hother _ rfl)
  | choke cause => simp [breakDown, hfinish, cause.found pauseSearch fun _ => rfl]
  | grace _ _ _ _ _ => exact (found_note pauseSearch _ _).trans (hcall w _)
  | progress _ _ _ _ => exact hcall w _
  | skip _ _ => simp [hfinish]
  | abort _ _ => simp
  | interrupt _ _ _ => simp [withFarewell, hfinish]
  | revoke _ => simp [withFarewell, hfinish]
  | fail _ _ => simp [breakDown, hfinish]
  | publish _ _ => simp
  | finish _ _ _ => simp [hfinish]
  | refuse _ _ => simp [breakDown, hfinish]
  | retract _ _ _ _ _ => simp [withFarewell, hfinish]
  | leave _ _ _ _ => simp [withFarewell, hfinish]
  | collapse _ _ _ => simp [breakDown, hfinish]
  | wait _ => rfl
  | atOnce _ => rfl
  | inTime _ _ _ => rfl
  | retry _ _ _ _ => rfl
  | wake _ _ => rfl
  | rise _ _ _ => rfl

omit [Clock τ] [Wait ω] [Spans ω τ] in
theorem graceDue_send (w : World τ ω) (event : Event τ) :
    (w.send event).books.run.graceDue = w.books.run.graceDue := rfl

/-- The grace period is used up on the way to a pause and nowhere else. -/
theorem Move.graceDue_eq (h : Move plan w p p' w') (hpausing : p'.isPausing = false) :
    w'.books.run.graceDue = w.books.run.graceDue := by
  cases h with
  | grace _ _ _ _ _ => cases hpausing
  | choke cause => simp [breakDown, books_shut, cause.books]
  | _ =>
      simp [withFarewell, breakDown, graceDue_send, books_shut, books_shutWith, books_withAnswer,
        books_withQuery, books_withPause, books_withBegin, books_withStart, books_record_paused,
        run_eq_books_run]

/-- One state leads to another while the timetable stands still: no pause and no query begins, and
no time passes.  The watch may come to have to end, and its task may be cancelled. -/
structure Still (w w' : World τ ω) : Prop where
  now : w'.now = w.now
  pauses : w'.pauses = w.pauses
  queries : w'.queryTimes = w.queryTimes
  graceDue : w'.run.graceDue = w.run.graceDue
  killed : w.run.killed = true → w'.run.killed = true
  mustEnd : w.MustEnd → w'.MustEnd

omit [Clock τ] [Wait ω] [Spans ω τ] in
theorem now_withQuery (plan : Plan τ ω) (w : World τ ω) : (w.withQuery plan).now = w.now := by
  rw [withQuery, openClient]
  split_ifs <;> rfl

/-- A move takes no time. -/
theorem Move.now_eq (h : Move plan w p p' w') : w'.now = w.now := by
  rcases h.advance with hadvance | ⟨_, rfl⟩
  · exact hadvance.now
  · exact w.now_withQuery plan

theorem Move.queryTimes_eq (h : Move plan w p p' w') (hasked : p'.isAsked = false) :
    w'.queryTimes = w.queryTimes := by
  rcases h.advance with hadvance | ⟨_, hquery⟩
  · exact hadvance.queryTimes
  · have hmore : w'.queryTimes.length = w.queryTimes.length + 1 := by
      rw [hquery]
      exact congrArg Books.asked (w.books_withQuery plan)
    have hsame := h.asked_eq fun number hasks => by
      rw [hasks] at hasked
      cases hasked
    omega

/-- Whenever the watch has to end, it has to after the move. -/
theorem Move.mustEnd (h : Move plan w p p' w') (hmust : w.MustEnd) : w'.MustEnd := by
  rcases h.advance with hadvance | ⟨hgoing, _⟩
  · exact hadvance.mustEnd hmust
  · exact absurd hmust hgoing

/-- The timetable stands still while the run is neither about to pause nor about to query. -/
theorem Move.still (h : Move plan w p p' w') (hfrom : p.isPausing = false)
    (hto : p'.isPausing = false) (hasked : p'.isAsked = false) : Still w w' := by
  have hkilled : w'.run.killed = w.run.killed := h.killed_eq
  exact ⟨h.now_eq, h.pauses_eq hfrom, h.queryTimes_eq hasked, h.graceDue_eq hto, hkilled.trans,
    h.mustEnd⟩

end World

end Vigil.Watch
