import Vigil.Proofs.Watch.Farewell
import Vigil.Proofs.Watch.Journal
import Vigil.Proofs.Watch.Passage
import Vigil.Proofs.Watch.Turns

/-!
# The hook hears of each observation

A run tells its hook of an observation when it has heard that the stream accepted it, and before it
does anything else.  So the hook is told of the accepted observations one by one in their order.  It
lags behind by one at most, namely between the acceptance and the next step of the run.
-/

namespace Vigil

/-- The observation that an event reports if the watch goes on after it. -/
def Event.observation? {τ : Type} : Event τ → Option (Snapshot τ)
  | .progress snapshot => some snapshot
  | _ => none

end Vigil

namespace Vigil.Watch

open Vigil.Stream (Reply Traffic)
open Vigil.Stream.Traffic (OneSender)

variable {τ ω : Type}

namespace World

/-- The observations that the hook was told of, in order. -/
def told (w : World τ ω) : List (Snapshot τ) := w.hookCalls.map Prod.snd

/-- The observations that the stream accepted and that the run has not told its hook of. -/
def untold (w : World τ ω) : List (Snapshot τ) :=
  match w.run.phase with
  | .sending ticket event =>
      match w.traffic.replyTo? (.run ticket) with
      | some .sent => event.observation?.toList
      | _ => []
  | _ => []

/-! ### When the hook is told -/

/-- Looking for the calls of a hook in a journal. -/
def callSearch : Search τ ω (Snapshot τ) := ⟨fun entry => entry.2.told?, fun _ _ => rfl⟩

theorem told_eq_found (w : World τ ω) : w.told = w.found callSearch := by
  rw [told, hookCalls, List.map_filterMap, found]
  congr 1
  funext entry
  obtain ⟨instant, deed⟩ := entry
  cases deed <;> rfl

theorem told_callHook (w : World τ ω) {plan : Plan τ ω} (hhook : plan.hook.isSome = true)
    (snapshot : Snapshot τ) : (w.callHook plan snapshot).told = w.told ++ [snapshot] := by
  rw [told_eq_found, told_eq_found, found_callHook, if_pos hhook]
  exact w.found_record callSearch (.hookCalled snapshot)

theorem told_withHook (w : World τ ω) {plan : Plan τ ω} (hhook : plan.hook.isSome = true)
    (snapshot : Snapshot τ) : (w.withHook plan snapshot).told = w.told ++ [snapshot] := by
  rw [← w.told_callHook hhook, told_eq_found, told_eq_found]
  exact found_noteAll callSearch _ _

section Untold

variable {w : World τ ω} {ticket : Nat} {event : Event τ}

theorem untold_of_sent (hphase : w.run.phase = .sending ticket event)
    (hreply : w.traffic.replyTo? (.run ticket) = some .sent) :
    w.untold = event.observation?.toList := by
  simp only [untold, hphase, hreply]

theorem untold_of_unsent (hphase : w.run.phase = .sending ticket event)
    (hreply : w.traffic.replyTo? (.run ticket) ≠ some .sent) : w.untold = [] := by
  rw [untold, hphase]
  dsimp only
  split
  · exact absurd ‹_› hreply
  · rfl

theorem untold_of_phase {phase : Phase τ} (hphase : w.run.phase = phase)
    (hother : ∀ ticket event, phase ≠ .sending ticket event) : w.untold = [] := by
  rw [untold, hphase]
  cases phase with
  | sending ticket event => exact absurd rfl (hother ticket event)
  | _ => rfl

theorem untold_length_le (w : World τ ω) : w.untold.length ≤ 1 := by
  rw [untold]
  split
  · split
    · cases Event.observation? _ <;> simp
    · simp
  · simp

/-- Nothing is left to be told where the run is not held up. -/
def untoldAt (w : World τ ω) : Point ω → List (Snapshot τ)
  | .held => w.untold
  | _ => []

/-- An event that was just offered has not been accepted. -/
theorem untold_send (hfresh : w.traffic.replyTo? (.run w.run.sends) = none) (event : Event τ) :
    (w.send event).untold = [] := by
  have hphase : (w.send event).run.phase = .sending w.run.sends event := rfl
  refine untold_of_unsent hphase ?_
  rw [Traffic.replyTo?_of_finished_eq (w.send_finished event), hfresh]
  nofun

end Untold

variable [Clock τ] [Wait ω] [Spans ω τ] {plan : Plan τ ω} {w w' : World τ ω} {p p' : Point ω}

omit [Spans ω τ] in
/-- A run that breaks because it cannot log something tells what was to be told. -/
theorem Choke.told_append {d : Defect} (h : Choke plan w p w' d)
    (hhook : plan.hook.isSome = true) :
    (w'.breakDown (.broken d)).told ++ [] = w.told ++ w.untoldAt p := by
  have hbroken : (w'.breakDown (.broken d)).told = w'.told := by
    rw [told_eq_found, told_eq_found, breakDown, finish, found_goTo,
      found_record_other callSearch _ rfl, found_shut]
  rw [List.append_nil, hbroken]
  have hquiet (hfound : w'.found callSearch = w.found callSearch) (hbefore : w.untoldAt p = []) :
      w'.told = w.told ++ w.untoldAt p := by
    rw [told_eq_found, told_eq_found, hfound, hbefore, List.append_nil]
  cases h with
  | complaint phase reply _ _ =>
      rw [w.told_callHook hhook, untoldAt, untold_of_sent phase reply]
      rfl
  | grace phase reply _ _ _ =>
      rw [w.told_withHook hhook, untoldAt, untold_of_sent phase reply]
      rfl
  | interrupt phase _ _ =>
      exact hquiet (w.found_closeClient callSearch plan) (untold_of_phase phase (by simp))
  | retract phase answered unsent _ _ =>
      exact hquiet rfl (untold_of_unsent phase (by simpa [answered] using unsent))
  | leave phase _ _ _ => exact hquiet rfl (untold_of_phase phase (by simp))
  | abort _ _ => exact hquiet rfl rfl
  | outcome _ _ _ => exact hquiet rfl rfl
  | revoke _ => exact hquiet rfl rfl

/-- A move either tells nothing and leaves nothing to be told, or it tells what was to be told. -/
theorem Move.told_append (h : Move plan w p p' w') (hhook : plan.hook.isSome = true)
    (hfresh : w.traffic.replyTo? (.run w.run.sends) = none) :
    w'.told ++ w'.untoldAt p' = w.told ++ w.untoldAt p := by
  have hquiet (hfound : w'.found callSearch = w.found callSearch) (hbefore : w.untoldAt p = [])
      (hafter : w'.untoldAt p' = []) : w'.told ++ w'.untoldAt p' = w.told ++ w.untoldAt p := by
    rw [told_eq_found, told_eq_found, hfound, hbefore, hafter]
  have hother (w : World τ ω) {deed : Deed τ ω} (hdeed : deed.told? = none) :
      (w.record deed).found callSearch = w.found callSearch := w.found_record_other callSearch hdeed
  have hfinish (w : World τ ω) (how : Ending) :
      (w.finish how).found callSearch = w.found callSearch := hother w rfl
  have hsent {w₁ : World τ ω} (hbooks : w₁.books = w.books) (event : Event τ) :
      (w₁.send event).untold = [] := by
    have htraffic : w₁.traffic = w.traffic := congrArg Books.traffic hbooks
    have hrun : w₁.run = w.run := congrArg Books.run hbooks
    refine untold_send ?_ event
    rw [htraffic, hrun, hfresh]
  cases h with
  | skip phase killed => exact hquiet (by simp [hfinish]) (untold_of_phase phase (by simp)) rfl
  | start phase alive opening dated =>
      refine hquiet ?_ (untold_of_phase phase (by simp)) rfl
      rw [withStart, found_note]
      exact hother _ rfl
  | mute phase alive cause =>
      exact hquiet ((hfinish _ _).trans (hother _ rfl)) (untold_of_phase phase (by simp)) rfl
  | choke cause => exact cause.told_append hhook
  | @abort note event reason dated => exact hquiet (by simp) rfl (hsent (w.books_note note) event)
  | ask noReason => exact hquiet ((found_openClient callSearch _ plan).trans (hother w rfl)) rfl rfl
  | wait duration => exact hquiet rfl rfl rfl
  | atOnce duration => exact hquiet rfl rfl rfl
  | inTime phase alive reached => exact hquiet rfl (untold_of_phase phase (by simp)) rfl
  | interrupt phase killed dated =>
      exact hquiet (by simp [withFarewell, hfinish]) (untold_of_phase phase (by simp)) rfl
  | answer =>
      refine hquiet ?_ rfl rfl
      rw [withAnswer, hother _ rfl, found_closeClient, found_triggers]
  | revoke dated => exact hquiet (by simp [withFarewell, hfinish]) rfl rfl
  | fail outcome dated => exact hquiet (by simp [breakDown, hfinish]) rfl rfl
  | @publish _ _ notes event outcome dated =>
      exact hquiet (by simp) rfl (hsent (w.books_noteAll notes) event)
  | @finish ticket event phase reply terminal =>
      have hnone : event.observation? = none := by
        cases event with
        | progress snapshot => cases terminal
        | _ => rfl
      refine hquiet (by simp [hfinish]) ?_ rfl
      rw [untoldAt, untold_of_sent phase reply, hnone]
      rfl
  | @grace ticket snapshot line phase reply first sleeping dated =>
      have htold : ((w.withHook plan snapshot).withGrace line).told = w.told ++ [snapshot] := by
        rw [← w.told_withHook hhook, told_eq_found, told_eq_found]
        exact found_note callSearch _ _
      change _ ++ [] = w.told ++ w.untold
      rw [htold, untold_of_sent phase reply, List.append_nil]
      rfl
  | @progress ticket snapshot phase reply later dated =>
      change _ ++ [] = w.told ++ w.untold
      rw [w.told_withHook hhook, untold_of_sent phase reply, List.append_nil]
      rfl
  | @retry ticket event phase reply terminal noSnapshot =>
      have hnone : event.observation? = none := by
        cases event with
        | progress snapshot => cases noSnapshot
        | _ => rfl
      refine hquiet rfl ?_ rfl
      rw [untoldAt, untold_of_sent phase reply, hnone]
      rfl
  | refuse phase reply =>
      exact hquiet (by simp [breakDown, hfinish]) (untold_of_unsent phase (by simp [reply])) rfl
  | @retract ticket _ _ phase answered unsent undenied dated =>
      have hunsent : w.traffic.replyTo? (.run ticket) ≠ some .sent := by simpa [answered] using unsent
      exact hquiet (by simp [withFarewell, hfinish]) (untold_of_unsent phase hunsent) rfl
  | sleep positive length => exact hquiet (hother w rfl) rfl rfl
  | overrun positive length => exact hquiet (hother w rfl) rfl rfl
  | hurry positive => exact hquiet (hother w rfl) rfl rfl
  | wake phase reason => exact hquiet rfl (untold_of_phase phase (by simp)) rfl
  | leave phase tidy killed dated =>
      exact hquiet (by simp [withFarewell, hfinish]) (untold_of_phase phase (by simp)) rfl
  | collapse phase tidy alive =>
      exact hquiet (by simp [breakDown, hfinish]) (untold_of_phase phase (by simp)) rfl
  | rise phase tidy alive => exact hquiet rfl (untold_of_phase phase (by simp)) rfl

end World

/-! ### What was said and what was told -/

/-- Of the observations among the events that the run has put on the stream, the hook was told of
those that are not still to be told. -/
def EchoAt (words : List (Event τ)) (p : Point ω) (w : World τ ω) : Prop :=
  words.filterMap Event.observation? = w.told ++ w.untoldAt p

section Steps

variable [Clock τ] {plan : Plan τ ω} {words : List (Event τ)} {w w' : World τ ω}

omit [Clock τ] in
theorem isAbort_hooked (hook : Option (Snapshot τ → Reaction)) {event : Event τ} :
    IsAbort (plan.hooked hook) event ↔ IsAbort plan event := by
  constructor <;> rintro (⟨exceeded⟩ | _)
  · exact .cancelled exceeded
  · exact .stopped
  · exact (.cancelled exceeded : IsAbort (plan.hooked hook) _)
  · exact (.stopped : IsAbort (plan.hooked hook) _)

/-- The hook of a plan does not enter what a run has on its way. -/
theorem posting_hooked (hook : Option (Snapshot τ → Reaction)) {b : Books τ} :
    Posting (plan.hooked hook) (.held : Point ω) b ↔ Posting plan (.held : Point ω) b := by
  have hstage : PostedIn (plan.hooked hook) b b.run.phase ↔ PostedIn plan b b.run.phase := by
    cases b.run.phase with
    | sending ticket event =>
        exact and_congr_right' (and_congr_right' (or_congr_right (isAbort_hooked hook)))
    | _ => exact Iff.rfl
  constructor
  · exact fun h => ⟨h.fresh, h.counted, hstage.mp h.stage⟩
  · exact fun h => ⟨h.fresh, h.counted, hstage.mpr h.stage⟩

omit [Clock τ] in
/-- A last event of a cancelled task is no observation. -/
theorem EchoAt.killed {p : Point ω} (h : EchoAt words p w) :
    EchoAt (words ++ [World.killedEvent plan]) p w := by
  rw [EchoAt, List.filterMap_append, h]
  exact List.append_nil _

/-- When somebody looks at the stream, the run hears that its event was accepted, or nothing new. -/
theorem EchoAt.serve (h : EchoAt words (.held : Point ω) w)
    (hposting : Posting plan (.held : Point ω) w.books) {position : Nat}
    (hserve : w' = { w with traffic := w.traffic.serveAt position }) :
    EchoAt (words ++ w.saidBy w' (.serve position)) (.held : Point ω) w' := by
  have hbefore : words.filterMap Event.observation? = w.told ++ w.untold := h
  have htold : w'.told = w.told := by rw [hserve]; rfl
  have hphase' {phase : Phase τ} (hphase : w.run.phase = phase) : w'.run.phase = phase := by
    rw [hserve]
    exact hphase
  have hreply (id : PartyId) :
      w'.traffic.replyTo? id = (w.traffic.serveAt position).replyTo? id := by rw [hserve]
  have hsilent (huntold : w'.untold = w.untold) (hnone : w.saidBy w' (.serve position) = []) :
      EchoAt (words ++ w.saidBy w' (.serve position)) (.held : Point ω) w' := by
    rw [EchoAt, hnone, List.append_nil, hbefore, htold, World.untoldAt, huntold]
  have hunsent {ticket : Nat} {event : Event τ} {reply : Reply (Event τ)}
      (phase : w.run.phase = .sending ticket event)
      (unanswered : w.traffic.replyTo? (.run ticket) = none)
      (answered : (w.traffic.serveAt position).replyTo? (.run ticket) = some reply)
      (hreply' : reply ≠ .sent) : w'.untold = w.untold := by
    rw [World.untold_of_unsent phase (by simp [unanswered]),
      World.untold_of_unsent (hphase' phase) (by simpa [hreply, answered] using hreply')]
  cases hposting.glance position with
  | nothing replies silent =>
      rw [← hserve] at silent
      refine hsilent ?_ silent
      rw [World.untold, World.untold, hphase' rfl]
      simp only [hreply, replies]
  | @sent ticket event phase unanswered answered said =>
      rw [← hserve] at said
      have hnone : w.untold = [] := World.untold_of_unsent phase (by simp [unanswered])
      have hnew : w'.untold = event.observation?.toList :=
        World.untold_of_sent (hphase' phase) ((hreply _).trans answered)
      rw [EchoAt, said, List.filterMap_append, hbefore, hnone, List.append_nil, htold,
        World.untoldAt, hnew]
      cases event <;> rfl
  | denied phase unanswered answered silent =>
      rw [← hserve] at silent
      exact hsilent (hunsent phase unanswered answered nofun) silent
  | withdrawn phase unanswered answered _ silent =>
      rw [← hserve] at silent
      exact hsilent (hunsent phase unanswered answered nofun) silent

variable [Wait ω] [Spans ω τ]

theorem EchoAt.stepRun (h : EchoAt words (.held : Point ω) w)
    (hposting : Posting plan (.held : Point ω) w.books) (hhook : plan.hook.isSome = true)
    (hgo : w.runCanGo = true) :
    EchoAt (words ++ w.saidBy (w.stepRun plan) .run) (.held : Point ω) (w.stepRun plan) := by
  have hstable : World.Stable plan fun p w₁ =>
      Posting plan p w₁.books ∧ EchoAt words p w₁ := by
    rintro w₁ p p' w₂ hmove ⟨hposting₁, hecho⟩
    refine ⟨posting_stable hmove hposting₁, ?_⟩
    rw [EchoAt, hmove.told_append hhook (hposting₁.fresh _ (Nat.le_refl _))]
    exact hecho
  have hstep := (hstable.stepRun hgo ⟨hposting, h⟩).2
  rw [World.saidBy]
  rcases World.stepRun_accepted plan hgo with haccepted | ⟨haccepted, _⟩
  · rwa [haccepted, List.drop_length, List.append_nil]
  · rw [haccepted, List.drop_left]
    exact hstep.killed

/-- Whatever happens, the hook is told of what the run has put on the stream. -/
theorem EchoAt.act {action : Action τ} (h : EchoAt words (.held : Point ω) w)
    (hposting : Posting plan (.held : Point ω) w.books) (hhook : plan.hook.isSome = true)
    (hact : w.act? plan action = some w') :
    EchoAt (words ++ w.saidBy w' action) (.held : Point ω) w' := by
  have hacts := World.acts_of_act? hact
  have hstill (haside : action.isAside = true) :
      EchoAt (words ++ w.saidBy w' action) (.held : Point ω) w' := by
    have hother := Action.ne_run_of_isAside haside
    have htold : w'.told = w.told := by
      rw [World.told, World.hookCalls, hacts.journal_eq hother]
      rfl
    have huntold : w'.untold = w.untold := by
      simp only [World.untold, hacts.phase_eq hother,
        Traffic.replyTo?_of_finished_eq (hacts.finished_eq haside)]
    rw [World.saidBy_of_isAside haside, List.append_nil, EchoAt, htold, World.untoldAt, huntold]
    exact h
  cases hacts with
  | run hgo => exact h.stepRun hposting hhook hgo
  | serve _ => exact h.serve hposting rfl
  | _ => exact hstill rfl

end Steps

/-! ### Runs with any hook -/

section Turns

variable [Clock τ] [Wait ω] [Spans ω τ] {plan : Plan τ ω} {words : List (Event τ)}
variable {w w' : World τ ω}

/-- What the stream accepts from the run in the course of some turns. -/
def World.saidIn (plan : Plan τ ω) (w : World τ ω) : List (Turn τ) → List (Event τ)
  | [] => []
  | turn :: turns =>
      match w.act? (plan.hooked turn.hook) turn.action with
      | some w' => w.saidBy w' turn.action ++ w'.saidIn plan turns
      | none => []

theorem EchoAt.takeAll {turns : List (Turn τ)} (h : EchoAt words (.held : Point ω) w)
    (hposting : Posting plan (.held : Point ω) w.books)
    (hhooks : ∀ turn ∈ turns, turn.hook.isSome = true) (htake : w.takeAll? plan turns = some w') :
    EchoAt (words ++ w.saidIn plan turns) (.held : Point ω) w' := by
  induction turns generalizing w words with
  | nil =>
      cases htake
      rwa [World.saidIn, List.append_nil]
  | cons turn turns ih =>
      obtain ⟨middle, hmiddle, htake⟩ := World.exists_of_takeAll?_cons htake
      have hposting' := (posting_hooked turn.hook).mpr hposting
      have hecho := h.act hposting' (hhooks turn List.mem_cons_self) hmiddle
      have hrest := ih hecho ((posting_hooked turn.hook).mp
        (posting_invariant.act trivial hmiddle hposting'))
        (fun other hother => hhooks other (List.mem_cons_of_mem _ hother)) htake
      rwa [World.saidIn, hmiddle, ← List.append_assoc]

/-! ### Consumers that offer nothing -/

/-- On a stream whose consumers offer nothing, only the run sends. -/
theorem oneSender_invariant :
    World.Invariant plan Action.OffersNothing fun _ w => OneSender False w.traffic := by
  refine traffic_invariant (fun s => ∀ id ask, s = .start id ask → ask.sends = id.isRun)
    (OneSender False) ?_ ?_ ?_ ?_
  · rintro s hs id ask rfl
    cases id with
    | consumer number => exact hs.elim
    | run ticket =>
        cases ask with
        | send entry => rfl
        | _ => exact hs.elim
  · intro consumer request hoffers id ask hstart
    cases hstart
    exact hoffers
  · intro consumer _ id ask hstart
    cases hstart
  · intro t s hs hsender
    cases s with
    | start id ask => exact hsender.start (hs id ask rfl) False.elim
    | serve position => exact hsender.serveAt position
    | withdraw id => exact hsender.withdraw id
    | close => exact (Traffic.closing_close t).sender hsender
    | sendFinal entry => exact (Traffic.closing_sendFinal t entry).sender hsender

omit [Clock τ] in
/-- A consumer that does not send leaves what was accepted as it was. -/
theorem accepted_serveAt {t : Traffic PartyId (Event τ)} (hsender : OneSender False t)
    (position : Nat) : ∃ new, (t.serveAt position).accepted = t.accepted ++ new ∧
      (t.servesRun position = false → new = []) := by
  cases hparty : t.ready[position]? with
  | none => exact ⟨[], by rw [Traffic.serveAt_of_none hparty, List.append_nil], fun _ => rfl⟩
  | some party =>
      obtain ⟨others, hparties, hserved⟩ := Traffic.serveAt_served hparty
      have hsends : party.ask.sends = party.id.isRun :=
        (hsender party (hparties.mem_iff.mpr List.mem_cons_self)).1
      cases hserved with
      | met _ outlook _ _ _ accepted _ =>
          refine ⟨_, accepted, fun hconsumer => outlook.met_of_not_sends ?_⟩
          rw [Traffic.servesRun, hparty, Option.any_some] at hconsumer
          rw [hsends, hconsumer]
      | withdrawn _ _ _ _ accepted _ => exact ⟨[], by rw [accepted, List.append_nil], fun _ => rfl⟩
      | turnedDown _ _ _ _ _ accepted _ =>
          exact ⟨[], by rw [accepted, List.append_nil], fun _ => rfl⟩
      | blocked _ _ _ _ _ accepted _ =>
          exact ⟨[], by rw [accepted, List.append_nil], fun _ => rfl⟩

/-- Then whatever the stream accepts comes from the run. -/
theorem World.accepted_act {action : Action τ} (hsender : OneSender False w.traffic)
    (hact : w.act? plan action = some w') :
    w'.traffic.accepted = w.traffic.accepted ++ w.saidBy w' action := by
  cases World.acts_of_act? hact with
  | run hgo =>
      rw [World.saidBy]
      rcases World.stepRun_accepted plan hgo with haccepted | ⟨haccepted, _⟩
      · rw [haccepted, List.drop_length, List.append_nil]
      · rw [haccepted, List.drop_left]
  | @serve position _ =>
      obtain ⟨new, haccepted, hconsumer⟩ := accepted_serveAt hsender position
      rw [World.saidBy]
      cases hserves : w.traffic.servesRun position with
      | true => rw [if_pos rfl, haccepted, List.drop_left]
      | false => rw [if_neg Bool.false_ne_true, haccepted, hconsumer hserves]
  | helper _ _ => exact (List.append_nil _).symm
  | @trigger t => cases t <;> simp [World.trigger, World.saidBy]
  | kill _ =>
      rw [World.kill]
      split <;> simp [World.saidBy]
  | _ => simp [World.saidBy, Traffic.start]

theorem World.accepted_takeAll {turns : List (Turn τ)} (hsender : OneSender False w.traffic)
    (hconsumers : ∀ turn ∈ turns, turn.action.OffersNothing)
    (htake : w.takeAll? plan turns = some w') :
    w'.traffic.accepted = w.traffic.accepted ++ w.saidIn plan turns := by
  induction turns generalizing w with
  | nil =>
      cases htake
      exact (List.append_nil _).symm
  | cons turn turns ih =>
      obtain ⟨middle, hmiddle, htake⟩ := World.exists_of_takeAll?_cons htake
      have hoffers := hconsumers turn List.mem_cons_self
      have hrest := ih (oneSender_invariant.act hoffers hmiddle hsender)
        (fun other hother => hconsumers other (List.mem_cons_of_mem _ hother)) htake
      rw [hrest, World.accepted_act hsender hmiddle, World.saidIn, hmiddle, List.append_assoc]

omit [Wait ω] [Spans ω τ] in
/-- A run that has something to tell can go on at once. -/
theorem World.untold_of_settled (hsettled : w.isSettled = true) : w.untold = [] := by
  cases hphase : w.run.phase with
  | sending ticket event =>
      refine World.untold_of_unsent hphase fun hreply => ?_
      have hgo : w.runCanGo = true := by simp [World.runCanGo, hphase, hreply]
      simp [World.isSettled, hgo] at hsettled
  | _ => exact World.untold_of_phase hphase (by simp)

end Turns

end Vigil.Watch
