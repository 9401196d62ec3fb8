import Mathlib.Tactic.SplitIfs
import Vigil.Watch.World

/-!
# The outcome of a query

What a watch makes of one answer, said once for all answers: which event follows from it, and which
answers lead to no event because the data has a shape that nobody can read.  The notes that a watch
logs on the way do not matter here.
-/

namespace Vigil.Watch

variable {τ ω : Type} [Clock τ]

/-- The event that follows from the result of a query at an instant; `none` if the result cannot be
read. -/
def outcome (config : WaitConfig ω) (strategy : Strategy) (instant : τ) :
    Result → Option (Event τ)
  | .failure f =>
      match strategy.isAbsent f with
      | .ok true =>
          if strategy.absentStatus = some config.desired.text then some .absent
          else some (.notFound (.notFound config.resource (some f)))
      | .ok false => some (.queryError f)
      | .error _ => none
  | .payload payload =>
      if payload.truthy then
        match strategy.statusOf payload, Clock.stamp? instant with
        | .ok status, some fetchedAt =>
            let snapshot : Snapshot τ := ⟨config.resource, status, payload, fetchedAt⟩
            if status.asText? = some config.desired.text then some (.desired snapshot)
            else if ∃ failure ∈ config.failures, status.asText? = some failure then
              some (.failed snapshot
                (.badStatus config.resource status config.desired.toValue))
            else some (.progress snapshot)
        | _, _ => none
      else some (.emptyResponse (.emptyResponse config.resource payload))
  | .cancelled => none

/-- Why the result of a query at an instant leads to no event. -/
def Unreadable (strategy : Strategy) (instant : τ) (d : Defect) : Result → Prop
  | .failure f => strategy.isAbsent f = .error d ∨ f.text = .error d
  | .payload payload =>
      payload.truthy = true ∧
        (strategy.statusOf payload = .error d ∨
          strategy.logFields payload = .error d ∨
          (∃ status, strategy.statusOf payload = .ok status ∧
            (status.shown = .error d ∨ status.canBeMember = false ∧ d = .wrongKind)) ∨
          (Clock.stamp? instant = none ∧ d = .tooLarge))
  | .cancelled => False

section Failure

variable {config : WaitConfig ω} {strategy : Strategy} {f : Failure} {notes : List Log.Note}

theorem outcome_of_observeFailure {event : Event τ} (instant : τ)
    (hobserve : observeFailure config strategy f = (notes, .ok event)) :
    outcome config strategy instant (.failure f) = some event := by
  simp only [observeFailure, classify, Verdict.ofAbsence, Strategy.absenceDesired] at hobserve
  simp only [outcome]
  cases habsent : strategy.isAbsent f with
  | error d => simp [habsent, bind, Except.bind] at hobserve
  | ok isAbsent =>
      cases htext : f.text with
      | error d =>
          cases isAbsent <;> simp [habsent, htext, bind, Except.bind, pure, Except.pure] at hobserve
      | ok text =>
          cases isAbsent with
          | false =>
              simp [habsent, htext, bind, Except.bind, pure, Except.pure] at hobserve
              simp [hobserve.2]
          | true =>
              by_cases hgoal : strategy.absentStatus = some config.desired.text
              · simp [habsent, htext, hgoal, bind, Except.bind, pure, Except.pure] at hobserve
                simp [hgoal, hobserve.2]
              · simp [habsent, htext, hgoal, bind, Except.bind, pure, Except.pure] at hobserve
                simp [hgoal, hobserve.2]

theorem unreadable_of_observeFailure {d : Defect} (instant : τ)
    (hobserve : (observeFailure config strategy f : List Log.Note × Except Defect (Event τ)) =
      (notes, .error d)) :
    Unreadable strategy instant d (.failure f) := by
  simp only [observeFailure, classify] at hobserve
  cases habsent : strategy.isAbsent f with
  | error d' =>
      simp only [habsent, bind, Except.bind, Prod.mk.injEq, Except.error.injEq] at hobserve
      rw [Unreadable, habsent, hobserve.2]
      exact .inl rfl
  | ok isAbsent =>
      cases htext : f.text with
      | error d' =>
          simp only [habsent, htext, bind, Except.bind, pure, Except.pure, Prod.mk.injEq,
            Except.error.injEq] at hobserve
          exact .inr (htext.trans (congrArg Except.error hobserve.2))
      | ok text =>
          simp only [habsent, htext, bind, Except.bind, pure, Except.pure] at hobserve
          split at hobserve <;> simp_all

end Failure

section Payload

variable {config : WaitConfig ω} {strategy : Strategy} {m : Moment τ} {payload : Value}
variable {notes : List Log.Note}

omit [Clock τ] in
theorem observeStatus_eq_ok {line : Log.Note} {shown : String} {snapshot : Snapshot τ}
    {event : Event τ}
    (hobserve : observeStatus config strategy line shown snapshot = (notes, .ok event)) :
    event =
      if snapshot.status.asText? = some config.desired.text then .desired snapshot
      else if ∃ failure ∈ config.failures, snapshot.status.asText? = some failure then
        .failed snapshot (.badStatus config.resource snapshot.status config.desired.toValue)
      else .progress snapshot := by
  simp only [observeStatus, isDesired, beq_iff_eq] at hobserve
  split_ifs at hobserve with hdesired
  · simp only [Prod.mk.injEq, Except.ok.injEq] at hobserve
    rw [if_pos hdesired, hobserve.2]
  rw [if_neg hdesired]
  rw [isFailure] at hobserve
  split_ifs at hobserve with hmember
  · cases htext : snapshot.status.asText? with
    | none =>
        simp only [htext, Option.map_none, Option.getD_none, Prod.mk.injEq,
          Except.ok.injEq] at hobserve
        simp [hobserve.2]
    | some text =>
        cases hcontains : config.failures.contains text with
        | true =>
            simp only [htext, Option.map_some, Option.getD_some, hcontains, Prod.mk.injEq,
              Except.ok.injEq] at hobserve
            have hin : text ∈ config.failures := by simpa using hcontains
            simp [hobserve.2, hin]
        | false =>
            simp only [htext, Option.map_some, Option.getD_some, hcontains, Prod.mk.injEq,
              Except.ok.injEq] at hobserve
            have hout : text ∉ config.failures := by simpa using hcontains
            simp [hobserve.2, hout]
  · simp at hobserve

omit [Clock τ] in
theorem observeStatus_eq_error {line : Log.Note} {shown : String} {snapshot : Snapshot τ}
    {d : Defect}
    (hobserve : observeStatus config strategy line shown snapshot = (notes, .error d)) :
    snapshot.status.canBeMember = false ∧ d = .wrongKind := by
  simp only [observeStatus] at hobserve
  split_ifs at hobserve with hdesired
  · simp at hobserve
  · rw [isFailure] at hobserve
    split_ifs at hobserve with hmember
    · split at hobserve <;> simp_all
    · simp only [Prod.mk.injEq, Except.error.injEq] at hobserve
      exact ⟨by simpa using hmember, hobserve.2.symm⟩

theorem outcome_of_observePayload {event : Event τ}
    (hobserve : observePayload config strategy m payload = (notes, .ok event)) :
    outcome config strategy m.now (.payload payload) = some event := by
  simp only [observePayload, Bool.not_eq_true', outcome] at hobserve ⊢
  cases htruthy : payload.truthy with
  | false =>
      simp only [htruthy, if_true, Prod.mk.injEq, Except.ok.injEq] at hobserve
      simp [hobserve.2]
  | true =>
      simp only [htruthy, Bool.true_eq_false, if_false] at hobserve
      simp only [if_true]
      cases hstatus : strategy.statusOf payload with
      | error d => simp [hstatus] at hobserve
      | ok status =>
          cases hstamp : Clock.stamp? m.now with
          | none => simp [hstatus, hstamp] at hobserve
          | some fetchedAt =>
              cases hfields : strategy.logFields payload with
              | error d => simp [hstatus, hstamp, hfields] at hobserve
              | ok fields =>
                  cases hshown : status.shown with
                  | error d => simp [hstatus, hstamp, hfields, hshown] at hobserve
                  | ok shown =>
                      simp only [hstatus, hstamp, hfields, hshown] at hobserve
                      rw [observeStatus_eq_ok hobserve]
                      dsimp only
                      split_ifs <;> rfl

theorem unreadable_of_observePayload {d : Defect}
    (hobserve : observePayload config strategy m payload = (notes, .error d)) :
    Unreadable strategy m.now d (.payload payload) := by
  simp only [observePayload, Bool.not_eq_true'] at hobserve
  cases htruthy : payload.truthy with
  | false => simp [htruthy] at hobserve
  | true =>
      refine ⟨htruthy, ?_⟩
      simp only [htruthy, Bool.true_eq_false, if_false] at hobserve
      cases hstatus : strategy.statusOf payload with
      | error d' =>
          simp only [hstatus, Prod.mk.injEq, Except.error.injEq] at hobserve
          exact .inl (by rw [hobserve.2])
      | ok status =>
          simp only [hstatus] at hobserve
          cases hstamp : Clock.stamp? m.now with
          | none =>
              simp only [hstamp, Prod.mk.injEq, Except.error.injEq] at hobserve
              exact .inr (.inr (.inr ⟨rfl, hobserve.2.symm⟩))
          | some fetchedAt =>
              simp only [hstamp] at hobserve
              cases hfields : strategy.logFields payload with
              | error d' =>
                  simp only [hfields, Prod.mk.injEq, Except.error.injEq] at hobserve
                  exact .inr (.inl (by rw [hobserve.2]))
              | ok fields =>
                  simp only [hfields] at hobserve
                  cases hshown : status.shown with
                  | error d' =>
                      simp only [hshown, Prod.mk.injEq, Except.error.injEq] at hobserve
                      exact .inr (.inr (.inl ⟨status, rfl, .inl (by rw [hshown, hobserve.2])⟩))
                  | ok shown =>
                      simp only [hshown] at hobserve
                      obtain ⟨hmember, hd⟩ := observeStatus_eq_error hobserve
                      exact .inr (.inr (.inl ⟨status, rfl, .inr ⟨hmember, hd⟩⟩))

end Payload

end Vigil.Watch
