import Vigil.Eks.Strategy
import Vigil.Proofs.Watch.Outcome

/-!
# What the strategies cannot read

Both strategies look for parts of tables, so an answer that is no table has no status.  They show
the status and one more part, so an answer in which one of these has a number of too many digits
cannot be shown.  And the text of a refusal tells whether something is gone, so a refusal whose
message is no text tells nothing.
-/

namespace Vigil.Eks

open Watch (Result Strategy Unreadable)

/-- The strategy is one of the two. -/
inductive IsStrategy : Strategy → Prop
  | cluster : IsStrategy clusterStrategy
  | update (cluster : String) : IsStrategy (updateStrategy cluster)

/-- The parts of a payload that a strategy shows. -/
inductive Shows : Strategy → String → Prop
  | status {strategy : Strategy} (known : IsStrategy strategy) : Shows strategy "status"
  | version : Shows clusterStrategy "version"
  | updateType (cluster : String) : Shows (updateStrategy cluster) "type"

/-- Something in a table that a strategy shows has too many digits. -/
def Unshowable (strategy : Strategy) (fields : Fields) : Prop :=
  ∃ key part d, Shows strategy key ∧ Fields.get? fields key = some part ∧ part.shown = .error d

/-- An answer that a strategy cannot read: a payload that counts as one and is no table or cannot be
shown, a refusal because something does not exist whose message is no text, or a failure whose text
has a number of too many digits. -/
def Garbled (strategy : Strategy) : Result → Prop
  | .payload v =>
      v.truthy = true ∧ ∀ fields, v = .table fields → Unshowable strategy fields
  | .failure f =>
      (∃ r, f = .refused r ∧ (r.code.getD (.text "")).asText? = some notFoundCode ∧
        (r.message.getD (.text "")).asText? = none) ∨
      ∃ d, f.text = .error d
  | .cancelled => False

section Parts

variable {fields : Fields} {key : String} {d : Defect}

theorem textAt_eq_error :
    textAt (.table fields) key = .error d ↔
      ∃ part, Fields.get? fields key = some part ∧ part.shown = .error d := by
  cases hpart : Fields.get? fields key with
  | none => simp [textAt, part?, hpart, bind, Except.bind, pure, Except.pure]
  | some part => simp [textAt, part?, hpart, bind, Except.bind]

theorem statusOf_eq_error :
    statusOf (.table fields) = .error d ↔
      ∃ part, Fields.get? fields "status" = some part ∧ part.shown = .error d := by
  rw [← textAt_eq_error, statusOf]
  cases textAt (.table fields) "status" <;> simp [bind, Except.bind, pure, Except.pure]

/-- The status of a table is a text, if it can be written at all. -/
theorem eq_text_of_statusOf {v status : Value} (h : statusOf v = .ok status) :
    ∃ s, status = .text s := by
  rw [statusOf] at h
  cases htext : textAt v "status" with
  | error d => rw [htext] at h; cases h
  | ok s =>
      rw [htext] at h
      cases h
      exact ⟨s, rfl⟩

theorem statusOf_of_not_table {v : Value} (h : ∀ fields, v ≠ .table fields) :
    statusOf v = .error .missingPart := by
  cases v with
  | table fields => exact absurd rfl (h fields)
  | _ => rfl

/-- What cannot be shown is neither nothing nor zero nor empty. -/
theorem truthy_of_shown {v : Value} (h : v.shown = .error d) : v.truthy = true := by
  cases v with
  | whole n =>
      have hzero : n ≠ 0 := by
        rintro rfl
        cases h
      simpa [Value.truthy] using hzero
  | list items => cases items <;> simp_all [Value.shown, Value.quoted, Value.quotedItems,
      Value.truthy, bind, Except.bind, pure, Except.pure]
  | table fields => cases fields <;> simp_all [Value.shown, Value.quoted, Value.quotedFields,
      Value.truthy, bind, Except.bind, pure, Except.pure]
  | _ => cases h

theorem cluster_logFields_eq_error :
    clusterStrategy.logFields (.table fields) = .error d ↔
      ∃ part, Fields.get? fields "version" = some part ∧ part.shown = .error d := by
  simp only [clusterStrategy, part?, bind, Except.bind]
  cases hversion : Fields.get? fields "version" with
  | none => simp [pure, Except.pure]
  | some version =>
      cases hshown : version.shown with
      | ok shown => cases htruthy : version.truthy <;> simp [hshown, htruthy, pure, Except.pure]
      | error d' => simp [hshown, truthy_of_shown hshown]

theorem update_logFields_eq_error {cluster : String} :
    (updateStrategy cluster).logFields (.table fields) = .error d ↔
      ∃ part, Fields.get? fields "type" = some part ∧ part.shown = .error d := by
  rw [← textAt_eq_error]
  simp only [updateStrategy, bind, Except.bind, pure, Except.pure]
  cases textAt (.table fields) "type" <;> simp

end Parts

namespace IsStrategy

variable {strategy : Strategy} {f : Failure}

theorem statusOf_eq (h : IsStrategy strategy) : strategy.statusOf = statusOf := by
  cases h <;> rfl

/-- A table cannot be shown if and only if its status or its log line cannot be written. -/
theorem unshowable_iff (h : IsStrategy strategy) {fields : Fields} :
    Unshowable strategy fields ↔
      ∃ d, strategy.statusOf (.table fields) = .error d ∨
        strategy.logFields (.table fields) = .error d := by
  rw [h.statusOf_eq]
  constructor
  · rintro ⟨key, part, d, hshows, hpart, hshown⟩
    refine ⟨d, ?_⟩
    cases hshows with
    | status _ => exact .inl (statusOf_eq_error.mpr ⟨part, hpart, hshown⟩)
    | version => exact .inr (cluster_logFields_eq_error.mpr ⟨part, hpart, hshown⟩)
    | updateType _ => exact .inr (update_logFields_eq_error.mpr ⟨part, hpart, hshown⟩)
  · rintro ⟨d, hstatus | hlog⟩
    · obtain ⟨part, hpart, hshown⟩ := statusOf_eq_error.mp hstatus
      exact ⟨_, part, d, .status h, hpart, hshown⟩
    · cases h with
      | cluster =>
          obtain ⟨part, hpart, hshown⟩ := cluster_logFields_eq_error.mp hlog
          exact ⟨_, part, d, .version, hpart, hshown⟩
      | update cluster =>
          obtain ⟨part, hpart, hshown⟩ := update_logFields_eq_error.mp hlog
          exact ⟨_, part, d, .updateType cluster, hpart, hshown⟩

end IsStrategy

/-- A rule for absence has no answer to a refusal whose message is no text, or it has to look at a
text that there is none of. -/
theorem isAbsent_or_text_eq_error {rule : AbsenceRule} {f : Failure} {strategy : Strategy} :
    (∃ d, rule.isAbsent f = .error d ∨ f.text = .error d) ↔ Garbled strategy (.failure f) := by
  cases htext : f.text with
  | error d => simp [Garbled, htext]
  | ok text =>
      cases f with
      | refused r =>
          simp only [AbsenceRule.isAbsent, AbsenceRule.matchesRefusal, Garbled, htext]
          by_cases hcode : (r.code.getD (.text "")).asText? = some notFoundCode
          · cases hmessage : (r.message.getD (.text "")).asText? with
            | none => simp [hcode, hmessage, bind, Except.bind]
            | some message =>
                cases hopening : Text.startsWith message rule.opening <;>
                  simp [hcode, hmessage, hopening, bind, Except.bind, pure, Except.pure]
          · simp [hcode, bind, Except.bind, pure, Except.pure]
      | _ => simp [AbsenceRule.isAbsent, Garbled, htext, bind, Except.bind, pure, Except.pure]

namespace IsStrategy

variable {strategy : Strategy}

theorem isAbsent_or_text_eq_error (h : IsStrategy strategy) {f : Failure} :
    (∃ d, strategy.isAbsent f = .error d ∨ f.text = .error d) ↔ Garbled strategy (.failure f) := by
  cases h <;> exact Eks.isAbsent_or_text_eq_error

/-- The strategies read everything but garbled answers, as long as the moment is on the calendar. -/
theorem unreadable_iff {τ : Type} [Clock τ] (h : IsStrategy strategy) {instant : τ}
    {result : Result} :
    (∃ d, Unreadable strategy instant d result) ↔
      Garbled strategy result ∨
        ∃ v, result = .payload v ∧ v.truthy = true ∧ Clock.stamp? instant = none := by
  cases result with
  | cancelled => simp [Unreadable, Garbled]
  | failure f => simpa [Unreadable] using h.isAbsent_or_text_eq_error
  | payload v =>
      by_cases htable : ∃ fields, v = .table fields
      · obtain ⟨fields, rfl⟩ := htable
        constructor
        · rintro ⟨d, htruthy, hstatus | hlog | ⟨status, hstatus, hshown⟩ | ⟨hstamp, _⟩⟩
          · exact .inl ⟨htruthy, fun _ heq => Value.table.inj heq ▸
              h.unshowable_iff.mpr ⟨d, .inl hstatus⟩⟩
          · exact .inl ⟨htruthy, fun _ heq => Value.table.inj heq ▸
              h.unshowable_iff.mpr ⟨d, .inr hlog⟩⟩
          · rw [h.statusOf_eq] at hstatus
            obtain ⟨s, rfl⟩ := eq_text_of_statusOf hstatus
            rcases hshown with hshown | ⟨hmember, _⟩
            · cases hshown
            · cases hmember
          · exact .inr ⟨_, rfl, htruthy, hstamp⟩
        · rintro (⟨htruthy, hunshowable⟩ | ⟨_, hv, htruthy, hstamp⟩)
          · obtain ⟨d, hstatus | hlog⟩ := h.unshowable_iff.mp (hunshowable fields rfl)
            · exact ⟨d, htruthy, .inl hstatus⟩
            · exact ⟨d, htruthy, .inr (.inl hlog)⟩
          · cases hv
            exact ⟨.tooLarge, htruthy, .inr (.inr (.inr ⟨hstamp, rfl⟩))⟩
      · have hnot : ∀ fields, v ≠ .table fields := fun fields heq => htable ⟨fields, heq⟩
        have hstatus : strategy.statusOf v = .error .missingPart := by
          rw [h.statusOf_eq, statusOf_of_not_table hnot]
        constructor
        · rintro ⟨d, htruthy, _⟩
          exact .inl ⟨htruthy, fun fields heq => absurd heq (hnot fields)⟩
        · rintro (⟨htruthy, _⟩ | ⟨_, hv, htruthy, _⟩)
          · exact ⟨.missingPart, htruthy, .inl hstatus⟩
          · cases hv
            exact ⟨.missingPart, htruthy, .inl hstatus⟩

end IsStrategy

end Vigil.Eks
