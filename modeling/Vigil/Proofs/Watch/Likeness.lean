import Vigil.Proofs.Stream.Discretion
import Vigil.Proofs.Watch.Heed
import Vigil.Proofs.Watch.Transcript
import Vigil.Proofs.Watch.Turns

/-!
# Watches that look alike

Whoever looks at a watch through a lens does not see everything: events may look the same that are
not, and deeds may go unnoticed.  Two watches whose plans look alike through the lens look alike all
along, as long as the same happens around them.  Whatever a lens hides has no influence on anything
that it shows.
-/

namespace Vigil.Watch

open Log (Note)
open Vigil.Stream (Traffic)

variable {τ ω : Type}

/-! ### Lenses -/

/-- A way to look at a watch.  It shows each event in some form that tells its kind, and it may show
deeds in another form or not at all; but it shows all queries and how the run ended.  It never shows
what was logged. -/
structure Lens (τ ω : Type) where
  blur : Event τ → Event τ
  notice : Deed τ ω → Option (Deed τ ω)
  kind_blur (event : Event τ) : (blur event).kind = event.kind
  notice_query {deed : Deed τ ω} {number : Nat} :
    notice deed = some (.query number) ↔ deed = .query number
  notice_noted (note : Note) : notice (.noted note) = none

def Phase.map (blur : Event τ → Event τ) : Phase τ → Phase τ
  | .sending ticket event => .sending ticket (blur event)
  | phase => phase

def Run.map (blur : Event τ → Event τ) (run : Run τ) : Run τ :=
  { run with phase := run.phase.map blur }

/-- What the lens shows of a journal. -/
def Lens.notices (lens : Lens τ ω) (journal : List (τ × Deed τ ω)) : List (τ × Deed τ ω) :=
  journal.filterMap fun (instant, deed) => (lens.notice deed).map fun deed => (instant, deed)

theorem Lens.notice_of_isQuery (lens : Lens τ ω) {deed : Deed τ ω} (hquery : deed.isQuery = true) :
    lens.notice deed = some deed := by
  cases deed with
  | query number => exact lens.notice_query.mpr rfl
  | _ => cases hquery

theorem Lens.isQuery_of_notice (lens : Lens τ ω) {deed shown : Deed τ ω}
    (hnotice : lens.notice deed = some shown) : shown.isQuery = deed.isQuery := by
  cases hquery : shown.isQuery with
  | true =>
      cases shown with
      | query number => rw [lens.notice_query.mp hnotice, Deed.isQuery]
      | _ => cases hquery
  | false =>
      cases hdeed : deed.isQuery with
      | true =>
          obtain rfl := Option.some.inj (hnotice.symm.trans (lens.notice_of_isQuery hdeed))
          exact hquery.symm.trans hdeed
      | false => rfl

/-- The lens shows all queries, and it shows nothing as a query that is none. -/
theorem Lens.notices_queries (lens : Lens τ ω) (journal : List (τ × Deed τ ω)) :
    (lens.notices journal).filter (fun entry => entry.2.isQuery) =
      journal.filter fun entry => entry.2.isQuery := by
  induction journal with
  | nil => rfl
  | cons entry journal ih =>
      obtain ⟨instant, deed⟩ := entry
      rw [Lens.notices] at ih
      cases hnotice : lens.notice deed with
      | none =>
          have hquery : deed.isQuery = false := by
            by_contra hquery
            simp [lens.notice_of_isQuery (Bool.eq_true_of_not_eq_false hquery)] at hnotice
          simp [Lens.notices, hnotice, hquery, ih]
      | some shown =>
          have hshown := lens.isQuery_of_notice hnotice
          cases hquery : deed.isQuery with
          | true =>
              obtain rfl := Option.some.inj (hnotice.symm.trans (lens.notice_of_isQuery hquery))
              simp [Lens.notices, hnotice, hquery, ih]
          | false => simp [Lens.notices, hnotice, hshown, hquery, ih]

theorem World.queryTimes_eq_filter (w : World τ ω) :
    w.queryTimes = (w.journal.filter fun entry => entry.2.isQuery).map Prod.fst := by
  rw [World.queryTimes, ← List.filterMap_eq_map, List.filterMap_filter]
  congr 1
  funext entry
  obtain ⟨instant, deed⟩ := entry
  cases deed <;> rfl

/-- Two states that look alike. -/
structure World.Alike (lens : Lens τ ω) (w w' : World τ ω) : Prop where
  now : w.now = w'.now
  cancellation : w.cancellation = w'.cancellation
  stopped : w.stopped = w'.stopped
  traffic : w.traffic.map lens.blur = w'.traffic.map lens.blur
  run : w.run.map lens.blur = w'.run.map lens.blur
  helpers : w.helpers = w'.helpers
  clients : w.clients = w'.clients
  journal : lens.notices w.journal = lens.notices w'.journal

namespace World

variable {lens : Lens τ ω} {w w' w'' : World τ ω}

@[simp]
theorem notices_append (journal journal' : List (τ × Deed τ ω)) :
    lens.notices (journal ++ journal') = lens.notices journal ++ lens.notices journal' :=
  List.filterMap_append

namespace Alike

theorem refl (w : World τ ω) : Alike lens w w := ⟨rfl, rfl, rfl, rfl, rfl, rfl, rfl, rfl⟩

theorem symm (h : Alike lens w w') : Alike lens w' w :=
  ⟨h.now.symm, h.cancellation.symm, h.stopped.symm, h.traffic.symm, h.run.symm, h.helpers.symm,
    h.clients.symm, h.journal.symm⟩

theorem trans (h : Alike lens w w') (h' : Alike lens w' w'') : Alike lens w w'' :=
  ⟨h.now.trans h'.now, h.cancellation.trans h'.cancellation, h.stopped.trans h'.stopped,
    h.traffic.trans h'.traffic, h.run.trans h'.run, h.helpers.trans h'.helpers,
    h.clients.trans h'.clients, h.journal.trans h'.journal⟩

variable (h : Alike lens w w')

include h

/-! ### What can be told apart -/

theorem killed : w.run.killed = w'.run.killed := (congrArg Run.killed h.run :)

theorem sends : w.run.sends = w'.run.sends := (congrArg Run.sends h.run :)

theorem phase : w.run.phase.map lens.blur = w'.run.phase.map lens.blur := congrArg Run.phase h.run

/-- A run that offers an event looks like one that offers an event that looks the same. -/
theorem sending {ticket : Nat} {event : Event τ} (hphase : w.run.phase = .sending ticket event) :
    ∃ event', w'.run.phase = .sending ticket event' ∧ lens.blur event = lens.blur event' := by
  have hsame := h.phase
  rw [hphase] at hsame
  cases hphase' : w'.run.phase with
  | sending ticket' event' =>
      rw [hphase'] at hsame
      obtain ⟨rfl, hblur⟩ := Phase.sending.inj hsame
      exact ⟨event', rfl, hblur⟩
  | _ =>
      rw [hphase'] at hsame
      cases hsame

/-- Any other phase can be told apart from all others. -/
theorem phase_eq {phase : Phase τ} (hphase : w.run.phase = phase)
    (hother : ∀ ticket event, phase ≠ .sending ticket event) : w'.run.phase = phase := by
  have hsame := h.phase
  rw [hphase] at hsame
  cases hphase' : w'.run.phase with
  | sending ticket event' =>
      rw [hphase'] at hsame
      cases phase with
      | sending ticket event => exact absurd rfl (hother ticket event)
      | _ => cases hsame
  | _ =>
      rw [hphase'] at hsame
      cases phase with
      | sending ticket event => exact absurd rfl (hother ticket event)
      | _ => exact hsame.symm

/-- Both ended in the same way, or neither did. -/
theorem ending? : w.ending? = w'.ending? := by
  cases hphase : w.run.phase with
  | sending ticket event =>
      obtain ⟨event', hphase', _⟩ := h.sending hphase
      simp only [World.ending?, hphase, hphase']
  | _ =>
      have hphase' := h.phase_eq hphase (by simp)
      simp only [World.ending?, hphase, hphase']

theorem queryTimes : w.queryTimes = w'.queryTimes := by
  rw [queryTimes_eq_filter, queryTimes_eq_filter, ← lens.notices_queries, h.journal,
    lens.notices_queries]

/-! ### What a run does -/

theorem record (deed deed' : Deed τ ω) (hdeed : lens.notice deed = lens.notice deed') :
    Alike lens (w.record deed) (w'.record deed') :=
  { h with
    journal := by
      simp only [World.record, notices_append, h.journal]
      simp only [Lens.notices, List.filterMap_cons, hdeed, h.now] }

omit h in
theorem noted (w : World τ ω) (note : Note) : Alike lens w (w.note note) :=
  { refl w with
    journal := by
      simp [World.note, World.record, Lens.notices, lens.notice_noted] }

omit h in
theorem notedAll (w : World τ ω) (notes : List Note) : Alike lens w (w.noteAll notes) := by
  induction notes generalizing w with
  | nil => exact refl w
  | cons note notes ih => exact (noted w note).trans (ih (w.note note))

theorem note (note note' : Note) : Alike lens (w.note note) (w'.note note') :=
  (noted w note).symm.trans (h.trans (noted w' note'))

theorem noteAll (notes notes' : List Note) : Alike lens (w.noteAll notes) (w'.noteAll notes') :=
  (notedAll w notes).symm.trans (h.trans (notedAll w' notes'))

theorem goTo {phase phase' : Phase τ} (hphase : phase.map lens.blur = phase'.map lens.blur) :
    Alike lens (w.goTo phase) (w'.goTo phase') :=
  { h with
    run := by
      have hrest := congrArg (fun run : Run τ => { run with phase := phase.map lens.blur }) h.run
      refine hrest.trans ?_
      rw [hphase]
      rfl }

theorem trigger (t : Trigger) : Alike lens (w.trigger t) (w'.trigger t) := by
  cases t with
  | cancel => exact { h with cancellation := congrArg Cancellation.request h.cancellation }
  | stop => exact { h with stopped := rfl }

theorem triggers (triggers : List Trigger) :
    Alike lens (triggers.foldl World.trigger w) (triggers.foldl World.trigger w') := by
  induction triggers generalizing w w' with
  | nil => exact h
  | cons t triggers ih => exact ih (h.trigger t)

theorem finish (how : Ending) : Alike lens (w.finish how) (w'.finish how) :=
  (h.record _ _ rfl).goTo rfl

/-- The streams stay alike, whatever happens to both. -/
theorem onStream (s : Stream.Step PartyId (Event τ)) :
    Alike lens { w with traffic := w.traffic.step s } { w' with traffic := w'.traffic.step s } :=
  { h with traffic := Traffic.step_congr h.traffic s s rfl }

end Alike

theorem shut_eq (w : World τ ω) : w.shut = { w with traffic := w.traffic.step .close } := by
  rw [shut, Traffic.step]
  split <;> simp_all

theorem shutWith_eq (w : World τ ω) (event : Event τ) :
    w.shutWith event = { w with traffic := w.traffic.step (.sendFinal event) } := by
  rw [shutWith, Traffic.step]
  split <;> simp_all

namespace Alike

variable (h : Alike lens w w')

include h

theorem shut : Alike lens w.shut w'.shut := by
  rw [shut_eq, shut_eq]
  exact h.onStream _

theorem shutWith (event : Event τ) : Alike lens (w.shutWith event) (w'.shutWith event) := by
  rw [shutWith_eq, shutWith_eq]
  exact h.onStream _

theorem breakDown (how : Ending) : Alike lens (w.breakDown how) (w'.breakDown how) :=
  h.shut.finish how

theorem send {event event' : Event τ} (hevent : lens.blur event = lens.blur event') :
    Alike lens (w.send event) (w'.send event') := by
  have hstart : Traffic.map lens.blur (w.traffic.step (.start (.run w.run.sends) (.send event))) =
      Traffic.map lens.blur (w'.traffic.step (.start (.run w'.run.sends) (.send event'))) := by
    refine Traffic.step_congr h.traffic _ _ ?_
    rw [Stream.Step.map, Stream.Step.map, Stream.Ask.map, Stream.Ask.map, hevent, h.sends]
  refine { h with traffic := ?_, run := ?_ }
  · simp only [World.send, ← h.killed, ← h.sends] at hstart ⊢
    split_ifs
    · exact Traffic.step_congr hstart (.withdraw _) (.withdraw _) rfl
    · exact hstart
  · have hsent := congrArg (fun run : Run τ =>
      { run with phase := .sending run.sends (lens.blur event), sends := run.sends + 1 }) h.run
    refine hsent.trans ?_
    rw [hevent]
    rfl

theorem callHelpers (pause : Nat) : Alike lens (w.callHelpers pause) (w'.callHelpers pause) :=
  { h with helpers := by rw [World.callHelpers, World.callHelpers, h.helpers] }

theorem dismissHelpers (pause : Nat) :
    Alike lens (w.dismissHelpers pause) (w'.dismissHelpers pause) :=
  { h with helpers := by rw [World.dismissHelpers, World.dismissHelpers, h.helpers] }

end Alike

end World

/-! ### Plans -/

/-- What a run makes of an outcome at an instant, if it can log what there is to log first. -/
def Plan.settle [Clock τ] (plan : Plan τ ω) (instant : τ)
    (outcome : List Note × Except Defect (Event τ)) : Except Defect (Event τ) :=
  if outcome.1 = [] ∨ Log.canRecord plan.heard instant = true then outcome.2
  else .error .tooLarge

/-- What the result of a query leads to; `none` if the query cancelled the task of the run. -/
def Plan.conclusion [Clock τ] (plan : Plan τ ω) (m : Moment τ) (number : Nat) :
    Option (Except Defect (Event τ)) :=
  match plan.result number with
  | .failure f => some (plan.settle m.now (observeFailure plan.config plan.strategy f))
  | .payload v => some (plan.settle m.now (observePayload plan.config plan.strategy m v))
  | .cancelled => none

/-- What a run writes down when it tells its hook of an observation. -/
def Plan.calls (plan : Plan τ ω) (snapshot : Snapshot τ) : List (Deed τ ω) :=
  match plan.hook with
  | none => []
  | some _ => [.hookCalled snapshot]

/-- Two plans of which the lens shows no difference: queries take as long, and what they lead to
looks the same; and hooks give the same signals about observations that look the same. -/
structure Plan.Alike [Clock τ] (lens : Lens τ ω) (plan plan' : Plan τ ω) : Prop where
  config : plan.config = plan'.config
  heard : plan.heard = plan'.heard
  opensClient : plan.strategy.opensClient = plan'.strategy.opensClient
  duration (number : Nat) : (plan.services number).duration = (plan'.services number).duration
  triggers (number : Nat) : (plan.services number).triggers = (plan'.services number).triggers
  answered (number : Nat) : lens.notice (.answered number (plan.result number)) =
    lens.notice (.answered number (plan'.result number))
  conclusion (m : Moment τ) (number : Nat) :
    (plan.conclusion m number).map (Except.map lens.blur) =
      (plan'.conclusion m number).map (Except.map lens.blur)
  called {s s' : Snapshot τ} : lens.blur (.progress s) = lens.blur (.progress s') →
    (plan.calls s).filterMap lens.notice = (plan'.calls s').filterMap lens.notice
  signals {s s' : Snapshot τ} : lens.blur (.progress s) = lens.blur (.progress s') →
    Deed.signals plan (.hookCalled s) = Deed.signals plan' (.hookCalled s')

namespace World

variable [Clock τ] {lens : Lens τ ω} {plan plan' : Plan τ ω} {w w' : World τ ω}

/-- A query that takes no time ends at once. -/
theorem beginQuery_of_none (hduration : (plan.services w.run.queries).duration = none) :
    w.beginQuery plan = (w.withQuery plan).endQuery plan w.run.queries := by
  simp only [World.beginQuery, World.withQuery, hduration]

theorem beginQuery_of_some {span : τ}
    (hduration : (plan.services w.run.queries).duration = some span) :
    w.beginQuery plan =
      (w.withQuery plan).goTo
        (.querying w.run.queries (Clock.add (w.withQuery plan).now span)) := by
  simp only [World.beginQuery, World.withQuery, hduration]

/-- What a run makes of an outcome, but for what it logs. -/
theorem conclude_eq (plan : Plan τ ω) (w : World τ ω)
    (outcome : List Note × Except Defect (Event τ)) :
    ∃ notes, w.conclude plan outcome =
      match plan.settle w.now outcome with
      | .ok event => (w.noteAll notes).send event
      | .error d => (w.noteAll notes).breakDown (.broken d) := by
  obtain ⟨notes, seen⟩ := outcome
  by_cases hdated : notes = [] ∨ w.CanRecord plan
  · have hsettle : plan.settle w.now (notes, seen) = seen := if_pos hdated
    refine ⟨notes, ?_⟩
    rw [World.conclude, logAll_of_canRecord hdated, hsettle]
    cases seen <;> rfl
  · obtain ⟨hsome, hundated⟩ := not_or.mp hdated
    have hsettle : plan.settle w.now (notes, seen) = .error .tooLarge := if_neg hdated
    refine ⟨[], ?_⟩
    rw [World.conclude, logAll_of_not_canRecord hsome hundated, hsettle]
    rfl

/-- A query ends in what follows from its result. -/
theorem endQuery_eq (plan : Plan τ ω) (w : World τ ω) (number : Nat) :
    ∃ notes, w.endQuery plan number =
      match plan.conclusion ⟨(w.withAnswer plan number).now,
          (w.withAnswer plan number).run.started, (w.withAnswer plan number).cancellation⟩
          number with
      | none => (w.withAnswer plan number).unwind plan
      | some (.ok event) => ((w.withAnswer plan number).noteAll notes).send event
      | some (.error d) => ((w.withAnswer plan number).noteAll notes).breakDown (.broken d) := by
  cases hresult : plan.strategy.read (plan.services number).answer with
  | cancelled =>
      refine ⟨[], ?_⟩
      simp only [endQuery, withAnswer, Plan.conclusion, Plan.result, hresult]
  | failure f =>
      obtain ⟨notes, hend⟩ := (w.withAnswer plan number).conclude_eq plan
        (observeFailure plan.config plan.strategy f)
      refine ⟨notes, ?_⟩
      simp only [withAnswer, hresult] at hend
      simp only [endQuery, withAnswer, Plan.conclusion, Plan.result, hresult, hend]
      split <;> simp_all
  | payload v =>
      obtain ⟨notes, hend⟩ := (w.withAnswer plan number).conclude_eq plan
        (observePayload plan.config plan.strategy ⟨(w.withAnswer plan number).now,
          (w.withAnswer plan number).run.started, (w.withAnswer plan number).cancellation⟩ v)
      refine ⟨notes, ?_⟩
      simp only [withAnswer, hresult] at hend
      simp only [endQuery, withAnswer, Plan.conclusion, Plan.result, hresult, hend]
      split <;> simp_all

/-- The next step of the run calls its hook, if it has one, with an observation. -/
def Calls (w : World τ ω) (snapshot : Snapshot τ) : Prop :=
  ∃ ticket, w.run.phase = .sending ticket (.progress snapshot) ∧
    w.traffic.replyTo? (.run ticket) = some .sent

/-- If no record can be made now, then both hooks complain of what they are told in the next step of
the run, or neither does. -/
def SameVoice (lens : Lens τ ω) (plan plan' : Plan τ ω) (w : World τ ω) : Prop :=
  w.CanRecord plan ∨ ∀ s s', w.Calls s → lens.blur (.progress s) = lens.blur (.progress s') →
    (complaints plan s = [] ↔ complaints plan' s' = [])

namespace Alike

variable (hplan : Plan.Alike lens plan plan') (h : Alike lens w w')

include hplan h

/-- Records can be made in both, or in neither. -/
theorem canRecord : w.CanRecord plan ↔ w'.CanRecord plan' := by
  rw [World.CanRecord, World.CanRecord, hplan.heard, h.now]

/-- Both can log what they have to log, or neither can. -/
theorem logAll {notes notes' : List Note}
    (hsame : w.CanRecord plan ∨ (notes = [] ↔ notes' = [])) :
    (w.logAll plan notes = .ok (w.noteAll notes) ∧
        w'.logAll plan' notes' = .ok (w'.noteAll notes')) ∨
      (w.logAll plan notes = .error .tooLarge ∧
        w'.logAll plan' notes' = .error .tooLarge) := by
  by_cases hcan : w.CanRecord plan
  · have hcan' := (h.canRecord hplan).mp hcan
    exact .inl ⟨logAll_of_canRecord (.inr hcan), logAll_of_canRecord (.inr hcan')⟩
  · have hcan' := hcan ∘ (h.canRecord hplan).mpr
    have hempty := hsame.resolve_left hcan
    by_cases hnone : notes = []
    · exact .inl ⟨logAll_of_canRecord (.inl hnone), logAll_of_canRecord (.inl (hempty.mp hnone))⟩
    · exact .inr ⟨logAll_of_not_canRecord hnone hcan,
        logAll_of_not_canRecord (hnone ∘ hempty.mpr) hcan'⟩

/-- Both can log a line, or neither can, if both have a line or neither has one. -/
theorem logLine {line line' : Except Defect Note}
    (hsame : line.map (fun _ => ()) = line'.map fun _ => ()) :
    (∃ n n', (line >>= w.log plan) = .ok (w.note n) ∧
        (line' >>= w'.log plan') = .ok (w'.note n')) ∨
      ∃ d, (line >>= w.log plan) = .error d ∧ (line' >>= w'.log plan') = .error d := by
  cases line with
  | error d =>
      cases line' with
      | error d' =>
          obtain rfl : d = d' := Except.error.inj hsame
          exact .inr ⟨d, rfl, rfl⟩
      | ok n' => cases hsame
  | ok n =>
      cases line' with
      | error d' => cases hsame
      | ok n' =>
          by_cases hcan : w.CanRecord plan
          · exact .inl ⟨n, n', log_of_canRecord hcan,
              log_of_canRecord ((h.canRecord hplan).mp hcan)⟩
          · exact .inr ⟨.tooLarge, log_of_not_canRecord hcan,
              log_of_not_canRecord (hcan ∘ (h.canRecord hplan).mpr)⟩

theorem unwind : Alike lens (w.unwind plan) (w'.unwind plan') := by
  have hevent : (killedEvent plan : Event τ) = killedEvent plan' := by
    rw [killedEvent, killedEvent, hplan.config]
  by_cases hcan : w.CanRecord plan
  · rw [World.unwind, World.unwind, log_of_canRecord hcan,
      log_of_canRecord ((h.canRecord hplan).mp hcan), hevent]
    exact ((h.note _ _).shutWith _).finish .cancelled
  · rw [World.unwind, World.unwind, log_of_not_canRecord hcan,
      log_of_not_canRecord (hcan ∘ (h.canRecord hplan).mpr)]
    exact h.breakDown _

theorem openClient : Alike lens (w.openClient plan) (w'.openClient plan') := by
  rw [World.openClient, World.openClient, hplan.opensClient]
  split_ifs
  · exact { h with clients := by rw [h.clients] }
  · exact h

theorem closeClient : Alike lens (w.closeClient plan) (w'.closeClient plan') := by
  rw [World.closeClient, World.closeClient, hplan.opensClient]
  split_ifs
  · exact { h with clients := by rw [h.clients] }
  · exact h

/-- Both have the same reason to end. -/
theorem abort? : w.abort? plan = w'.abort? plan' := by
  rw [World.abort?, World.abort?, h.cancellation, h.now, h.stopped, hplan.config]

theorem withAnswer (number : Nat) :
    Alike lens (w.withAnswer plan number) (w'.withAnswer plan' number) := by
  rw [World.withAnswer, World.withAnswer, hplan.triggers number]
  exact ((h.triggers _).closeClient hplan).record _ _ (hplan.answered number)

theorem endQuery (number : Nat) :
    Alike lens (w.endQuery plan number) (w'.endQuery plan' number) := by
  have hanswered := h.withAnswer hplan number
  obtain ⟨notes, hend⟩ := w.endQuery_eq plan number
  obtain ⟨notes', hend'⟩ := w'.endQuery_eq plan' number
  have hstarted : (w.withAnswer plan number).run.started =
      (w'.withAnswer plan' number).run.started := (congrArg Run.started hanswered.run :)
  rw [← hanswered.now, ← hstarted, ← hanswered.cancellation] at hend'
  rw [hend, hend']
  have hnoted := hanswered.noteAll notes notes'
  have hconclusion := hplan.conclusion ⟨(w.withAnswer plan number).now,
    (w.withAnswer plan number).run.started, (w.withAnswer plan number).cancellation⟩ number
  revert hconclusion
  rcases plan.conclusion _ number with _ | d | event <;>
    rcases plan'.conclusion _ number with _ | d' | event' <;> intro hseen
  case none.none => exact hanswered.unwind hplan
  case some.error.some.error =>
    obtain rfl : d = d' := Except.error.inj (Option.some.inj hseen)
    exact hnoted.breakDown _
  case some.ok.some.ok => exact hnoted.send (Except.ok.inj (Option.some.inj hseen))
  all_goals cases hseen

theorem withQuery : Alike lens (w.withQuery plan) (w'.withQuery plan') := by
  have hnumber : w.run.queries = w'.run.queries := (congrArg Run.queries h.run :)
  rw [World.withQuery, World.withQuery, hnumber]
  have hopened := (h.record (.query w'.run.queries) _ rfl).openClient hplan
  exact { hopened with
    run := congrArg (fun run : Run τ => { run with queries := w'.run.queries + 1 }) hopened.run }

theorem beginQuery : Alike lens (w.beginQuery plan) (w'.beginQuery plan') := by
  have hasked := h.withQuery hplan
  have hnumber : w.run.queries = w'.run.queries := (congrArg Run.queries h.run :)
  have hduration' : (plan'.services w'.run.queries).duration =
      (plan.services w.run.queries).duration := by rw [← hnumber, hplan.duration]
  cases hduration : (plan.services w.run.queries).duration with
  | none =>
      rw [hduration] at hduration'
      rw [beginQuery_of_none hduration, beginQuery_of_none hduration', hnumber]
      exact hasked.endQuery hplan _
  | some span =>
      rw [hduration] at hduration'
      rw [beginQuery_of_some hduration, beginQuery_of_some hduration', hnumber]
      refine hasked.goTo ?_
      rw [hasked.now]

theorem decide : Alike lens (w.decide plan) (w'.decide plan') := by
  rw [World.decide, World.decide, h.abort? hplan]
  cases w'.abort? plan' with
  | none => exact h.beginQuery hplan
  | some reason =>
      obtain ⟨note, event⟩ := reason
      rcases h.logAll hplan (.inr (Iff.refl ([note] = []))) with ⟨hlog, hlog'⟩ | ⟨hlog, hlog'⟩
      · simp only [World.conclude, hlog, hlog']
        exact (h.noteAll _ _).send rfl
      · simp only [World.conclude, hlog, hlog']
        exact h.breakDown _

variable [Wait ω] [Spans ω τ]

omit [Clock τ] hplan [Spans ω τ] [Wait ω] in
theorem withPause (delay : ω) : Alike lens (w.withPause delay) (w'.withPause delay) := by
  have hnumber : w.run.pauses = w'.run.pauses := (congrArg Run.pauses h.run :)
  have hpaused := h.record (.paused delay) _ rfl
  rw [World.withPause, World.withPause, hnumber]
  refine Alike.callHelpers ?_ _
  exact { hpaused with
    run := congrArg (fun run : Run τ => { run with pauses := w'.run.pauses + 1 }) h.run }

theorem pause (delay : ω) : Alike lens (w.pause plan delay) (w'.pause plan' delay) := by
  have hnumber : w.run.pauses = w'.run.pauses := (congrArg Run.pauses h.run :)
  rw [World.pause, World.pause]
  cases Wait.isPositive delay with
  | false =>
      simp only [Bool.false_eq_true, if_false]
      exact (h.record _ _ rfl).decide hplan
  | true =>
      simp only [if_true]
      cases (Spans.span? delay : Option τ) with
      | none =>
          have hdismissed : Alike lens ((w.withPause delay).dismissHelpers w.run.pauses)
              ((w'.withPause delay).dismissHelpers w'.run.pauses) := by
            rw [hnumber]
            exact (h.withPause delay).dismissHelpers _
          apply hdismissed.goTo
          exact congrArg (fun number => Phase.tidying number (some .tooLarge)) hnumber
      | some span =>
          apply (h.withPause delay).goTo
          change Phase.sleeping w.run.pauses (Clock.add w.now span) =
            .sleeping w'.run.pauses (Clock.add w'.now span)
          rw [hnumber, h.now]

end Alike

/-- Several deeds at once. -/
def recordAll (w : World τ ω) (deeds : List (Deed τ ω)) : World τ ω :=
  { w with journal := w.journal ++ deeds.map fun deed => (w.now, deed) }

namespace Alike

omit [Clock τ] in
theorem recordAll (h : Alike lens w w') {deeds deeds' : List (Deed τ ω)}
    (hdeeds : deeds.filterMap lens.notice = deeds'.filterMap lens.notice) :
    Alike lens (w.recordAll deeds) (w'.recordAll deeds') := by
  have hnew (deeds : List (Deed τ ω)) (now : τ) :
      lens.notices (deeds.map fun deed => (now, deed)) =
        (deeds.filterMap lens.notice).map fun deed => (now, deed) := by
    rw [Lens.notices, List.filterMap_map, List.map_filterMap]
    rfl
  refine { h with journal := ?_ }
  simp only [World.recordAll, notices_append, hnew, h.journal, h.now, hdeeds]

omit [Clock τ] in
/-- A call of the hook is written down, and its signals are given. -/
theorem calledHook (plan : Plan τ ω) (w : World τ ω) (snapshot : Snapshot τ) :
    Alike lens (w.callHook plan snapshot)
      ((Deed.signals plan (.hookCalled snapshot)).foldl World.trigger
        (w.recordAll (plan.calls snapshot))) := by
  cases hhook : plan.hook with
  | none =>
      simp only [World.callHook, Deed.signals, Plan.calls, hhook, World.recordAll, List.map_nil,
        List.append_nil, List.foldl_nil]
      exact refl w
  | some hook =>
      have hcalled : w.recordAll (plan.calls snapshot) = w.record (.hookCalled snapshot) := by
        simp only [World.recordAll, Plan.calls, hhook, World.record, List.map_cons, List.map_nil]
      rw [hcalled]
      simp only [World.callHook, Deed.signals, hhook]
      cases hook snapshot with
      | record => exact refl _
      | trigger t => exact refl _
      | fail f => exact refl _

omit [Clock τ] in
theorem callHook [Clock τ] (hplan : Plan.Alike lens plan plan') (h : Alike lens w w')
    {s s' : Snapshot τ} (hs : lens.blur (.progress s) = lens.blur (.progress s')) :
    Alike lens (w.callHook plan s) (w'.callHook plan' s') := by
  have hcalled := (h.recordAll (hplan.called hs)).triggers (Deed.signals plan (.hookCalled s))
  have hleft : Alike lens (w.callHook plan s) _ := calledHook plan w s
  have hright : Alike lens (w'.callHook plan' s') _ := calledHook plan' w' s'
  rw [← hplan.signals hs] at hright
  exact hleft.trans (hcalled.trans hright.symm)

end Alike

/-! ### Steps -/

variable [Wait ω] [Spans ω τ]

/-- After an event that is no observation and does not end the watch, the run pauses. -/
theorem afterSend_of_ne {plan : Plan τ ω} {w : World τ ω} {event : Event τ}
    (hgoing : event.isTerminal = false) (hkind : event.kind ≠ .progress) :
    w.afterSend plan event = w.pause plan plan.config.pollInterval := by
  unfold World.afterSend
  rw [hgoing]
  cases event with
  | progress snapshot => exact absurd rfl hkind
  | _ => rfl

namespace Alike

variable (hplan : Plan.Alike lens plan plan') (h : Alike lens w w')

include hplan h

/-- Both rest for as long, and both log it or neither can. -/
theorem rest : Alike lens (w.rest plan) (w'.rest plan') := by
  have hgrace : w.run.graceDue = w'.run.graceDue := (congrArg Run.graceDue h.run :)
  have hline : sleepingLine plan = sleepingLine plan' := by
    rw [sleepingLine, sleepingLine, hplan.config]
  rw [World.rest, World.rest, ← hgrace, ← hline, ← hplan.config]
  cases w.run.graceDue with
  | false => exact h.pause hplan _
  | true =>
      have hsame : (sleepingLine plan).map (fun _ => ()) = (sleepingLine plan).map fun _ => () := rfl
      rcases h.logLine hplan hsame with
        ⟨n, n', hlog, hlog'⟩ | ⟨d, hlog, hlog'⟩
      · simp only [hlog, hlog', if_true]
        have hgraced : Alike lens (w.withGrace n) (w'.withGrace n') :=
          { h.note n n' with
            run := congrArg (fun run : Run τ => { run with graceDue := false }) h.run }
        exact hgraced.pause hplan _
      · simp only [hlog, hlog', if_true]
        exact h.breakDown _

/-- What follows an accepted observation looks the same, if what the hooks complain of does. -/
theorem afterProgress {s s' : Snapshot τ} (hs : lens.blur (.progress s) = lens.blur (.progress s'))
    (hvoice : w.CanRecord plan ∨ (complaints plan s = [] ↔ complaints plan' s' = [])) :
    Alike lens (w.afterSend plan (.progress s)) (w'.afterSend plan' (.progress s')) := by
  have hcalled := h.callHook hplan hs
  have hvoice := hvoice.imp_left (canRecord_congr plan (w.now_callHook plan s)).mpr
  rcases hcalled.logAll hplan hvoice with ⟨hlog, hlog'⟩ | ⟨hlog, hlog'⟩
  · rw [afterSend_of_logged hlog, afterSend_of_logged hlog']
    exact (hcalled.noteAll _ _).rest hplan
  · rw [afterSend_of_not_logged hlog, afterSend_of_not_logged hlog']
    exact hcalled.breakDown _

theorem afterSend {event event' : Event τ} (hevent : lens.blur event = lens.blur event')
    (hvoice : ∀ s s', event = .progress s → event' = .progress s' →
      w.CanRecord plan ∨ (complaints plan s = [] ↔ complaints plan' s' = [])) :
    Alike lens (w.afterSend plan event) (w'.afterSend plan' event') := by
  have hkind : event.kind = event'.kind := by
    rw [← lens.kind_blur event, hevent, lens.kind_blur]
  have hterminal : event.isTerminal = event'.isTerminal := congrArg Event.Kind.isTerminal hkind
  cases hend : event.isTerminal with
  | true =>
      unfold World.afterSend
      rw [if_pos hend, if_pos (hterminal ▸ hend)]
      exact h.shut.finish .finished
  | false =>
      by_cases hprogress : event.kind = .progress
      · cases event with
        | progress s =>
            cases event' with
            | progress s' => exact h.afterProgress hplan hevent (hvoice s s' rfl rfl)
            | _ => cases hkind
        | _ => cases hprogress
      · rw [afterSend_of_ne hend hprogress, afterSend_of_ne (hterminal ▸ hend) (hkind ▸ hprogress),
          hplan.config]
        exact h.pause hplan _

omit [Spans ω τ] in
theorem begin : Alike lens (w.begin plan) (w'.begin plan') := by
  have hevent : (killedEvent plan : Event τ) = killedEvent plan' := by
    rw [killedEvent, killedEvent, hplan.config]
  rw [World.begin, World.begin, ← h.killed, ← hevent]
  cases w.run.killed with
  | true => exact (h.shutWith _).finish _
  | false =>
      have hstarted : Alike lens w.withBegin w'.withBegin := by
        have hrun : Run.map lens.blur { w.run with started := w.now } =
            Run.map lens.blur { w'.run with started := w'.now } := by
          rw [h.now]
          exact congrArg (fun run : Run τ => { run with started := w'.now }) h.run
        have hset : Alike lens { w with run := { w.run with started := w.now } }
            { w' with run := { w'.run with started := w'.now } } := { h with run := hrun }
        exact hset.record .began .began rfl
      have hline : (w.withBegin.openingLine plan).map (fun _ => ()) =
          (w'.withBegin.openingLine plan').map fun _ => () := by
        simp only [World.openingLine, hplan.config]
        cases Wait.text plan'.config.initialWait with
        | error d => rfl
        | ok first =>
            cases Wait.text plan'.config.pollInterval with
            | error d => rfl
            | ok second => rfl
      simp only [Bool.false_eq_true, if_false]
      rcases hstarted.logLine hplan hline with ⟨n, n', hlog, hlog'⟩ | ⟨d, hlog, hlog'⟩
      · simp only [World.withBegin] at hlog hlog'
        simp only [hlog, hlog']
        exact (hstarted.note n n').decide hplan
      · simp only [World.withBegin] at hlog hlog'
        simp only [hlog, hlog']
        exact hstarted.finish _

omit [Clock τ] [Wait ω] [Spans ω τ] hplan in
theorem reply (id : PartyId) : (w.traffic.replyTo? id).map (Stream.Reply.map lens.blur) =
    (w'.traffic.replyTo? id).map (Stream.Reply.map lens.blur) := by
  rw [← Traffic.map_replyTo?, ← Traffic.map_replyTo?, h.traffic]

omit [Wait ω] [Spans ω τ] hplan in
theorem runCanGo : w.runCanGo = w'.runCanGo := by
  have hreply (ticket : Nat) : (w.traffic.replyTo? (.run ticket)).isSome =
      (w'.traffic.replyTo? (.run ticket)).isSome := by
    rw [← Option.isSome_map, h.reply, Option.isSome_map]
  cases hphase : w.run.phase with
  | sending ticket event =>
      obtain ⟨event', hphase', _⟩ := h.sending hphase
      simp only [World.runCanGo, hphase, hphase', hreply ticket]
  | _ =>
      have hphase' := h.phase_eq hphase (by simp)
      simp only [World.runCanGo, hphase, hphase', h.killed, h.now, guarded, fullyGuarded, h.helpers]

theorem stepRun (hvoice : w.SameVoice lens plan plan') :
    Alike lens (w.stepRun plan) (w'.stepRun plan') := by
  cases hphase : w.run.phase with
  | sending ticket event =>
      obtain ⟨event', hphase', hevent⟩ := h.sending hphase
      have hreplies := h.reply (.run ticket)
      simp only [World.stepRun, hphase, hphase']
      cases hreply : w.traffic.replyTo? (.run ticket) with
      | none =>
          rw [hreply, Option.map_none, eq_comm, Option.map_eq_none_iff] at hreplies
          simp only [hreplies]
          exact h
      | some reply =>
          rw [hreply, Option.map_some, eq_comm, Option.map_eq_some_iff] at hreplies
          obtain ⟨reply', hreply', hsame⟩ := hreplies
          simp only [hreply']
          cases reply with
          | sent =>
              cases reply' with
              | sent =>
                  refine h.afterSend hplan hevent fun s s' hs hs' => ?_
                  subst hs hs'
                  exact hvoice.imp_right fun hsame => hsame s s' ⟨ticket, hphase, hreply⟩ hevent
              | _ => cases hsame
          | denied d =>
              cases reply' with
              | denied d' =>
                  obtain rfl := Stream.Reply.denied.inj hsame
                  exact h.breakDown _
              | _ => cases hsame
          | _ =>
              cases reply' with
              | sent => cases hsame
              | denied d' => cases hsame
              | _ => exact h.unwind hplan
  | created =>
      have hphase' := h.phase_eq hphase (by simp)
      simp only [World.stepRun, hphase, hphase']
      exact h.begin hplan
  | querying number due =>
      have hphase' := h.phase_eq hphase (by simp)
      simp only [World.stepRun, hphase, hphase', h.killed]
      split_ifs
      · exact (h.closeClient hplan).unwind hplan
      · exact h.endQuery hplan number
  | sleeping pause due =>
      have hphase' := h.phase_eq hphase (by simp)
      simp only [World.stepRun, hphase, hphase']
      exact (h.dismissHelpers pause).goTo rfl
  | tidying pause defect =>
      have hphase' := h.phase_eq hphase (by simp)
      simp only [World.stepRun, hphase, hphase', h.killed]
      split_ifs
      · exact h.unwind hplan
      · cases defect with
        | none => exact h.decide hplan
        | some d => exact h.breakDown _
  | ended how =>
      have hphase' := h.phase_eq hphase (by simp)
      simp only [World.stepRun, hphase, hphase']
      exact h

omit [Clock τ] [Wait ω] [Spans ω τ] hplan in
theorem kill : Alike lens w.kill w'.kill := by
  have hkilled : { w.run with killed := true }.map lens.blur =
      { w'.run with killed := true }.map lens.blur :=
    congrArg (fun run : Run τ => { run with killed := true }) h.run
  cases hphase : w.run.phase with
  | sending ticket event =>
      obtain ⟨event', hphase', _⟩ := h.sending hphase
      simp only [World.kill, hphase, hphase'] at hkilled ⊢
      exact { h with
        traffic := Traffic.step_congr h.traffic (.withdraw _) (.withdraw _) rfl
        run := hkilled }
  | ended how =>
      have hphase' := h.phase_eq hphase (by simp)
      simp only [World.kill, hphase, hphase']
      exact h
  | _ =>
      have hphase' := h.phase_eq hphase (by simp)
      simp only [World.kill, hphase, hphase'] at hkilled ⊢
      exact { h with run := hkilled }

omit [Wait ω] [Spans ω τ] hplan in
theorem helperCanGo : w.helperCanGo = w'.helperCanGo := by
  funext helper
  rw [World.helperCanGo, World.helperCanGo, h.cancellation, h.now, h.stopped]

omit [Wait ω] [Spans ω τ] hplan in
theorem stepHelper (position : Nat) (helper : Helper τ) :
    Alike lens (w.stepHelper position helper) (w'.stepHelper position helper) := by
  have hlook : w.lookHelper helper = w'.lookHelper helper := by
    rw [World.lookHelper, World.lookHelper, h.cancellation, h.now, h.stopped]
  rw [World.stepHelper, World.stepHelper, hlook, h.helpers]
  exact { h with helpers := rfl }

omit [Wait ω] [Spans ω τ] hplan in
theorem isSettled : w.isSettled = w'.isSettled := by
  have htraffic : w.traffic.isSettled = w'.traffic.isSettled := by
    rw [← Traffic.isSettled_map lens.blur, h.traffic, Traffic.isSettled_map]
  rw [World.isSettled, World.isSettled, nextHelper?, nextHelper?, htraffic, h.helperCanGo,
    h.helpers, h.runCanGo]

omit [Clock τ] [Wait ω] [Spans ω τ] hplan in
theorem timers : w.timers = w'.timers := by
  cases hphase : w.run.phase with
  | sending ticket event =>
      obtain ⟨event', hphase', _⟩ := h.sending hphase
      simp only [World.timers, hphase, hphase', h.helpers]
  | _ =>
      have hphase' := h.phase_eq hphase (by simp)
      simp only [World.timers, hphase, hphase', h.helpers]

omit [Clock τ] [Wait ω] [Spans ω τ] hplan in
theorem isHeldUp : w.isHeldUp = w'.isHeldUp := by
  have hreply (ticket : Nat) : (w.traffic.replyTo? (.run ticket)).isNone =
      (w'.traffic.replyTo? (.run ticket)).isNone := by
    rw [← Option.isNone_map, h.reply, Option.isNone_map]
  cases hphase : w.run.phase with
  | sending ticket event =>
      obtain ⟨event', hphase', _⟩ := h.sending hphase
      simp only [World.isHeldUp, hphase, hphase', hreply]
  | _ =>
      have hphase' := h.phase_eq hphase (by simp)
      simp only [World.isHeldUp, hphase, hphase']

/-- What is possible in one is possible in the other, and they look alike again. -/
theorem act? (action : Action τ) (hvoice : action = .run → w.SameVoice lens plan plan') :
    Option.Rel (Alike lens) (w.act? plan action) (w'.act? plan' action) := by
  cases action with
  | run =>
      simp only [World.act?, h.runCanGo]
      split_ifs
      · exact .some (h.stepRun hplan (hvoice rfl))
      · exact .none
  | helper position =>
      simp only [World.act?, h.helpers]
      cases w'.helpers[position]? with
      | none => exact .none
      | some helper =>
          simp only [h.helperCanGo]
          split_ifs
          · exact .some (h.stepHelper position helper)
          · exact .none
  | serve position =>
      have hready : w.traffic.ready.length = w'.traffic.ready.length := by
        have hsame := congrArg (fun t => t.ready.length) h.traffic
        simpa [Traffic.map] using hsame
      simp only [World.act?, hready]
      split_ifs
      · exact .some (h.onStream (.serve position))
      · exact .none
  | passTime goal =>
      simp only [World.act?, h.isSettled, h.now, h.timers]
      split_ifs
      · exact .some { h with now := rfl }
      · exact .none
  | trigger t => exact .some (h.trigger t)
  | kill =>
      simp only [World.act?, h.isHeldUp]
      split_ifs
      · exact .some h.kill
      · exact .none
  | ask consumer request =>
      exact .some (h.onStream (.start _ request))
  | withdraw consumer => exact .some (h.onStream (.withdraw _))

end Alike

end World

theorem rel_mono {α β : Type} {R S : α → β → Prop} (himp : ∀ {a b}, R a b → S a b)
    {o : Option α} {p : Option β} (h : Option.Rel R o p) : Option.Rel S o p := by
  cases h with
  | some hrel => exact .some (himp hrel)
  | none => exact .none

/-- The same happens in the turns of two watches, their hooks leave the plans alike, and the hooks
have the same voice whenever one of them is called. -/
inductive Abreast [Clock τ] [Wait ω] [Spans ω τ] (lens : Lens τ ω) (plan plan' : Plan τ ω) :
    World τ ω → List (Turn τ) → List (Turn τ) → Prop
  | nil (w : World τ ω) : Abreast lens plan plan' w [] []
  | cons {w : World τ ω} {turn turn' : Turn τ} {turns turns' : List (Turn τ)}
      (action : turn.action = turn'.action)
      (plans : Plan.Alike lens (plan.hooked turn.hook) (plan'.hooked turn'.hook))
      (voices : turn.action = .run →
        w.SameVoice lens (plan.hooked turn.hook) (plan'.hooked turn'.hook))
      (later : ∀ middle, w.act? (plan.hooked turn.hook) turn.action = some middle →
        Abreast lens plan plan' middle turns turns') :
      Abreast lens plan plan' w (turn :: turns) (turn' :: turns')

/-- Two watches that look alike look alike all along, and neither goes on where the other cannot. -/
theorem World.Alike.takeAll? [Clock τ] [Wait ω] [Spans ω τ] {lens : Lens τ ω}
    {plan plan' : Plan τ ω} {w w' : World τ ω} (h : World.Alike lens w w')
    {turns turns' : List (Turn τ)} (hturns : Abreast lens plan plan' w turns turns') :
    Option.Rel (World.Alike lens) (w.takeAll? plan turns) (w'.takeAll? plan' turns') := by
  induction hturns generalizing w' with
  | nil => exact .some h
  | @cons w turn turn' turns turns' haction hplans hvoices _ ih =>
      rw [World.takeAll?, World.takeAll?, ← haction]
      have hrel := h.act? hplans turn.action hvoices
      revert hrel ih
      cases w.act? (plan.hooked turn.hook) turn.action with
      | none =>
          cases w'.act? (plan'.hooked turn'.hook) turn.action with
          | none => exact fun _ _ => .none
          | some middle' => exact fun _ hrel => by cases hrel
      | some middle =>
          cases w'.act? (plan'.hooked turn'.hook) turn.action with
          | none => exact fun _ hrel => by cases hrel
          | some middle' =>
              rintro ih (hmiddle | _)
              exact ih middle rfl hmiddle

end Vigil.Watch
