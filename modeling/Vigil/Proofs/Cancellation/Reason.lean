import Vigil.Proofs.Cancellation.History

/-!
# The reason that a cancellation gives

A cancellation that has fired says why: its deadline passed, or somebody asked.  Whoever asks before
the deadline settles the matter for good.  The deadline does not: the reason is made out anew each
time, from the clock and from whether anybody has asked by then, so that whoever asks too late still
makes the cancellation forget that its deadline had passed.
-/

namespace Vigil.Cancellation.Waiters

variable {τ : Type}

/-- Nobody asks. -/
def Unasked (history : List (Happening τ)) : Prop := ∀ h ∈ history, h.isRequest = false

theorem unasked_iff {history : List (Happening τ)} :
    Unasked history ↔ history.any Happening.isRequest = false := by
  simp [Unasked]

theorem unasked_append {earlier later : List (Happening τ)} :
    Unasked (earlier ++ later) ↔ Unasked earlier ∧ Unasked later := by
  simp [Unasked, or_imp, forall_and]

variable [Clock τ]

/-- The deadline is the reason while it has passed and nobody has asked. -/
theorem exceeded_run_iff {w : Waiters τ} (hw : w.cancellation.requested = false)
    {history : List (Happening τ)} :
    (w.run history).exceeded = true ↔ (w.run history).overdue = true ∧ Unasked history := by
  rw [exceeded_eq, run_requested, hw, Bool.false_or, Bool.and_eq_true, Bool.not_eq_true',
    unasked_iff]
  exact and_comm

/-- A cancellation that fired because somebody asked never gives another reason. -/
theorem exceeded_append_eq_false {w : Waiters τ} (hw : w.cancellation.requested = false)
    {earlier later : List (Happening τ)} (hfired : (w.run earlier).fired = true)
    (hexceeded : (w.run earlier).exceeded = false) :
    (w.run (earlier ++ later)).exceeded = false := by
  rw [← Bool.not_eq_true, exceeded_run_iff hw, unasked_append]
  rintro ⟨-, hunasked, -⟩
  have hoverdue : (w.run earlier).overdue = true := by
    rw [fired_eq, run_requested, hw, unasked_iff.mp hunasked] at hfired
    exact hfired
  rw [(exceeded_run_iff hw).mpr ⟨hoverdue, hunasked⟩] at hexceeded
  cases hexceeded

/-- How the reasons at the moments of a history hang together. -/
structure Reasons (w : Waiters τ) (history : List (Happening τ)) : Prop where
  /-- Once somebody asked before the deadline, the deadline is the reason at no moment at all. -/
  asked_first {before rest : List (Happening τ)} : before ++ .step .request :: rest = history →
    (w.run before).overdue = false → ∀ {moment}, moment <+: history →
    (w.run moment).exceeded = false
  /-- Once the deadline was reached before anybody asked, it is the reason until somebody does. -/
  reached_first {before between : List (Happening τ)} : before ++ between <+: history →
    Unasked before → (w.run before).overdue = true →
    ((w.run (before ++ between)).exceeded = true ↔ Unasked between)
  still_fired {earlier later : List (Happening τ)} : earlier ++ later <+: history →
    (w.run earlier).fired = true → (w.run (earlier ++ later)).fired = true
  /-- A reason that was given stays the same, unless it was the deadline and then somebody asked. -/
  unchanged_iff {earlier later : List (Happening τ)} : earlier ++ later <+: history →
    (w.run earlier).fired = true →
    ((w.run (earlier ++ later)).exceeded = (w.run earlier).exceeded ↔
      ((w.run earlier).exceeded = true → Unasked later))

variable [OrderedClock τ]

theorem overdue_append {w : Waiters τ} {earlier later : List (Happening τ)}
    (honward : w.Onward (earlier ++ later)) (hoverdue : (w.run earlier).overdue = true) :
    (w.run (earlier ++ later)).overdue = true := by
  rw [run_append]
  exact overdue_run (onward_append.mp honward).2 hoverdue

/-- The deadline that has passed stays the reason as long as nobody asks. -/
theorem exceeded_append_iff {w : Waiters τ} (hw : w.cancellation.requested = false)
    {earlier later : List (Happening τ)} (honward : w.Onward (earlier ++ later))
    (hexceeded : (w.run earlier).exceeded = true) :
    (w.run (earlier ++ later)).exceeded = true ↔ Unasked later := by
  obtain ⟨hoverdue, hunasked⟩ := (exceeded_run_iff hw).mp hexceeded
  rw [exceeded_run_iff hw, unasked_append]
  constructor
  · exact fun h => h.2.2
  · exact fun h => ⟨overdue_append honward hoverdue, hunasked, h⟩

/-- A request before the deadline comes before any moment at which the deadline has passed. -/
theorem exceeded_eq_false_of_asked_first {w : Waiters τ} (hw : w.cancellation.requested = false)
    {before rest moment : List (Happening τ)}
    (honward : w.Onward (before ++ .step .request :: rest))
    (hearly : (w.run before).overdue = false) (hmoment : moment <+: before ++ .step .request :: rest) :
    (w.run moment).exceeded = false := by
  rw [← Bool.not_eq_true, exceeded_run_iff hw]
  rintro ⟨hoverdue, hunasked⟩
  rcases List.prefix_or_prefix_of_prefix hmoment (List.prefix_append _ _) with
    ⟨more, rfl⟩ | ⟨more, rfl⟩
  · -- a moment before the request: the clock would go back until then
    rw [overdue_append (onward_append.mp honward).1 hoverdue] at hearly
    cases hearly
  · cases more with
    | nil =>
        rw [List.append_nil, hearly] at hoverdue
        cases hoverdue
    | cons h more =>
        -- a moment after the request: somebody has asked
        have hrequest : h :: more <+: .step .request :: rest :=
          (List.prefix_append_right_inj before).mp hmoment
        obtain rfl : h = .step .request := (List.cons_prefix_cons.mp hrequest).1
        cases (unasked_append.mp hunasked).2 _ (List.mem_cons_self)

/-- Asking before the deadline settles the reason, and so does the deadline until somebody asks:
then, and only then, the reason changes from the one to the other. -/
theorem reasons_of_onward {now timeout : τ} {history : List (Happening τ)}
    (honward : (fresh now (some timeout)).Onward history) :
    Reasons (fresh now (some timeout)) history := by
  generalize hfresh : fresh now (some timeout) = w at honward ⊢
  have hw : w.cancellation.requested = false := by rw [← hfresh]; rfl
  have hpart : ∀ {moment}, moment <+: history → w.Onward moment := by
    rintro moment ⟨rest, rfl⟩
    exact (onward_append.mp honward).1
  constructor
  · rintro before rest rfl hearly moment hmoment
    exact exceeded_eq_false_of_asked_first hw honward hearly hmoment
  · intro before between hmoment hunasked hoverdue
    exact exceeded_append_iff hw (hpart hmoment)
      ((exceeded_run_iff hw).mpr ⟨hoverdue, hunasked⟩)
  · intro earlier later hmoment hfired
    rw [run_append]
    exact fired_run (onward_append.mp (hpart hmoment)).2 hfired
  · intro earlier later hmoment hfired
    cases hexceeded : (w.run earlier).exceeded with
    | false => simp [exceeded_append_eq_false hw hfired hexceeded]
    | true =>
        rw [exceeded_append_iff hw (hpart hmoment) hexceeded]
        exact ⟨fun h _ => h, fun h => h rfl⟩

/-- A second after its deadline had passed, somebody asked: the deadline was the reason before that,
and is no longer the reason after. -/
theorem reasons_when_asked_late :
    Reasons (fresh (0 : Int) (some 1)) [.step (.advance 2), .step .request] ∧
      ((fresh (0 : Int) (some 1)).run [.step (.advance 2)]).exceeded = true ∧
      ((fresh (0 : Int) (some 1)).run [.step (.advance 2), .step .request]).exceeded = false :=
  ⟨reasons_of_onward ⟨.inr rfl, .inl rfl, trivial⟩, rfl, rfl⟩

end Vigil.Cancellation.Waiters
