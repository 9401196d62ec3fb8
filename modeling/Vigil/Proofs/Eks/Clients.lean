import Vigil.Proofs.Eks.Garbled
import Vigil.Proofs.Watch.Timetable

/-!
# Clients are closed

Each query opens a client of its own.  A client that stayed open after its query would be lost, one
for each poll, for as long as the watch goes on.  Here it is shown that none does: wherever a query
ends, be it with an answer, with a failure, or because the task of the run was cancelled, its client
is closed before the run does anything else.
-/

namespace Vigil.Watch

open Log (Note)

variable {τ ω : Type}

def Phase.isQuerying : Phase τ → Bool
  | .querying _ _ => true
  | _ => false

namespace World

/-- A query is under way. -/
def isAsking (w : World τ ω) : Point ω → Bool
  | .held => w.run.phase.isQuerying
  | .asked _ => true
  | .due _ => true
  | _ => false

/-- The points of its control flow that a run passes, from where it is held up. -/
inductive Passes [Clock τ] [Wait ω] [Spans ω τ] (plan : Plan τ ω) (w : World τ ω) :
    Point ω → World τ ω → Prop
  | here : Passes plan w .held w
  | move {w₁ w₂ : World τ ω} {p p' : Point ω} (before : Passes plan w p w₁)
      (next : Move plan w₁ p p' w₂) : Passes plan w p' w₂

/-- Every query opened a client, and the only one that can be open is that of a query under way. -/
structure Accounted (p : Point ω) (w : World τ ω) : Prop where
  opened : w.clients.opened = w.queryTimes.length
  stillOpen : w.clients.stillOpen = if w.isAsking p then 1 else 0

/-! ### What touches no client -/

section Others

variable (w : World τ ω)

@[simp]
theorem clients_record (deed : Deed τ ω) : (w.record deed).clients = w.clients := rfl

@[simp]
theorem clients_note (note : Note) : (w.note note).clients = w.clients := rfl

@[simp]
theorem clients_noteAll (notes : List Note) : (w.noteAll notes).clients = w.clients := by
  induction notes generalizing w with
  | nil => rfl
  | cons note notes ih => exact ih (w.note note)

@[simp]
theorem clients_goTo (phase : Phase τ) : (w.goTo phase).clients = w.clients := rfl

@[simp]
theorem clients_trigger (t : Trigger) : (w.trigger t).clients = w.clients := by
  cases t <;> rfl

@[simp]
theorem clients_triggers (triggers : List Trigger) :
    (triggers.foldl trigger w).clients = w.clients := by
  induction triggers generalizing w with
  | nil => rfl
  | cons t triggers ih => exact (ih (w.trigger t)).trans (w.clients_trigger t)

@[simp]
theorem clients_finish (how : Ending) : (w.finish how).clients = w.clients := rfl

@[simp]
theorem clients_shut : w.shut.clients = w.clients := by
  rw [shut]
  split <;> rfl

@[simp]
theorem clients_shutWith (event : Event τ) : (w.shutWith event).clients = w.clients := by
  rw [shutWith]
  split <;> rfl

@[simp]
theorem clients_withFarewell (plan : Plan τ ω) : (w.withFarewell plan).clients = w.clients := by
  simp [withFarewell]

@[simp]
theorem clients_breakDown (how : Ending) : (w.breakDown how).clients = w.clients := by
  simp [breakDown]

@[simp]
theorem clients_send (event : Event τ) : (w.send event).clients = w.clients := rfl

@[simp]
theorem clients_dismissHelpers (pause : Nat) : (w.dismissHelpers pause).clients = w.clients := rfl

@[simp]
theorem clients_withPause (delay : ω) : (w.withPause delay).clients = w.clients := rfl

@[simp]
theorem clients_callHook (plan : Plan τ ω) (snapshot : Snapshot τ) :
    (w.callHook plan snapshot).clients = w.clients := by
  rw [callHook]
  split
  · rfl
  · dsimp only
    split <;> simp

@[simp]
theorem clients_withHook (plan : Plan τ ω) (snapshot : Snapshot τ) :
    (w.withHook plan snapshot).clients = w.clients := by
  simp [withHook]

end Others

variable {plan : Plan τ ω} {w w' : World τ ω}

theorem clients_openClient (hopens : plan.strategy.opensClient = true) :
    (w.openClient plan).clients = ⟨w.clients.opened + 1, w.clients.stillOpen + 1⟩ := by
  rw [openClient, if_pos hopens]

theorem clients_closeClient (hopens : plan.strategy.opensClient = true) :
    (w.closeClient plan).clients = ⟨w.clients.opened, w.clients.stillOpen - 1⟩ := by
  rw [closeClient, if_pos hopens]

theorem isAsking_held {phase : Phase τ} (hphase : w.run.phase = phase) :
    w.isAsking (.held : Point ω) = phase.isQuerying := by
  rw [isAsking, hphase]

/-! ### Every move keeps the account -/

namespace Accounted

variable {p p' : Point ω}

/-- Nothing is opened or closed, and no query begins or ends. -/
theorem of_eq (h : Accounted p w) (hclients : w'.clients = w.clients)
    (hqueries : w'.queryTimes = w.queryTimes) (hasking : w'.isAsking p' = w.isAsking p) :
    Accounted p' w' where
  opened := by rw [hclients, hqueries, h.opened]
  stillOpen := by rw [hclients, hasking, h.stillOpen]

/-- A query begins while none is under way, and so it has the only client. -/
theorem opens (h : Accounted p w) (hopens : plan.strategy.opensClient = true)
    (hidle : w.isAsking p = false) (number : Nat) :
    Accounted (.asked number) (w.withQuery plan) where
  opened := by
    have hone : (w.withQuery plan).queryTimes.length = w.queryTimes.length + 1 :=
      congrArg Books.asked (w.books_withQuery plan)
    have hclients : (w.withQuery plan).clients.opened = w.clients.opened + 1 :=
      congrArg Clients.opened (clients_openClient hopens)
    rw [hone, hclients, h.opened]
  stillOpen := by
    have hclients : (w.withQuery plan).clients.stillOpen = w.clients.stillOpen + 1 :=
      congrArg Clients.stillOpen (clients_openClient hopens)
    have hnone : w.clients.stillOpen = 0 := by rw [h.stillOpen, hidle, if_neg Bool.false_ne_true]
    rw [hclients, hnone, isAsking, if_pos rfl]

/-- A query that is under way ends, and its client is closed. -/
theorem closes (h : Accounted p w) (hasking : w.isAsking p = true)
    (hclients : w'.clients = ⟨w.clients.opened, w.clients.stillOpen - 1⟩)
    (hqueries : w'.queryTimes = w.queryTimes) (hover : w'.isAsking p' = false) :
    Accounted p' w' where
  opened := by rw [hclients, hqueries, h.opened]
  stillOpen := by
    have hone : w.clients.stillOpen = 1 := by rw [h.stillOpen, hasking, if_pos rfl]
    rw [hclients, hone, hover, if_neg Bool.false_ne_true]

end Accounted

variable [Clock τ] [Wait ω] [Spans ω τ]

omit [Spans ω τ] in
/-- A run that breaks because it cannot log something has closed the client of its query. -/
theorem Choke.accounted {p : Point ω} {d : Defect} (hchoke : Choke plan w p w' d)
    (hopens : plan.strategy.opensClient = true)
    (hqueries : (w'.breakDown (.broken d)).queryTimes = w.queryTimes) (h : Accounted p w) :
    Accounted (.held : Point ω) (w'.breakDown (.broken d)) := by
  cases hchoke with
  | interrupt phase _ _ =>
      have hasking : w.isAsking .held = true := by rw [isAsking, phase, Phase.isQuerying]
      refine h.closes hasking ?_ hqueries rfl
      rw [clients_breakDown, clients_closeClient hopens]
  | complaint phase _ _ _ => exact h.of_eq (by simp) hqueries (isAsking_held phase).symm
  | grace phase _ _ _ _ => exact h.of_eq (by simp) hqueries (isAsking_held phase).symm
  | retract phase _ _ _ _ => exact h.of_eq (by simp) hqueries (isAsking_held phase).symm
  | leave phase _ _ _ => exact h.of_eq (by simp) hqueries (isAsking_held phase).symm
  | abort _ _ => exact h.of_eq (by simp) hqueries rfl
  | outcome _ _ _ => exact h.of_eq (by simp) hqueries rfl
  | revoke _ => exact h.of_eq (by simp) hqueries rfl

theorem accounted_stable (hopens : plan.strategy.opensClient = true) :
    Stable plan Accounted := by
  intro w p p' w' hmove h
  have hqueries (hasked : p'.isAsked = false) := hmove.queryTimes_eq hasked
  cases hmove with
  | ask noReason => exact h.opens hopens rfl _
  | interrupt phase killed dated =>
      have hasking : w.isAsking .held = true := by rw [isAsking, phase, Phase.isQuerying]
      refine h.closes hasking ?_ (hqueries rfl) rfl
      rw [clients_withFarewell, clients_closeClient hopens]
  | answer =>
      refine h.closes rfl ?_ (hqueries rfl) rfl
      rw [withAnswer, clients_record, clients_closeClient hopens, clients_triggers]
  | wait duration => exact h.of_eq rfl (hqueries rfl) rfl
  | atOnce duration => exact h.of_eq rfl rfl rfl
  | inTime phase alive reached =>
      exact h.of_eq rfl rfl (by rw [isAsking, isAsking, phase, Phase.isQuerying])
  | abort reason dated => exact h.of_eq rfl (hqueries rfl) rfl
  | revoke dated => exact h.of_eq (by simp) (hqueries rfl) rfl
  | fail outcome dated => exact h.of_eq (by simp) (hqueries rfl) rfl
  | publish outcome dated => exact h.of_eq (by simp) (hqueries rfl) rfl
  | sleep positive length => exact h.of_eq rfl (hqueries rfl) rfl
  | overrun positive length => exact h.of_eq rfl (hqueries rfl) rfl
  | hurry positive => exact h.of_eq rfl (hqueries rfl) rfl
  | skip phase killed => exact h.of_eq (by simp) (hqueries rfl) (isAsking_held phase).symm
  | start phase alive opening dated =>
      exact h.of_eq rfl (hqueries rfl) (isAsking_held phase).symm
  | mute phase alive cause => exact h.of_eq rfl (hqueries rfl) (isAsking_held phase).symm
  | choke cause => exact cause.accounted hopens (hqueries rfl) h
  | finish phase reply terminal =>
      exact h.of_eq (by simp) (hqueries rfl) (isAsking_held phase).symm
  | grace phase reply first sleeping dated =>
      exact h.of_eq (by simp [withGrace]) (hqueries rfl) (isAsking_held phase).symm
  | progress phase reply later dated =>
      exact h.of_eq (by simp) (hqueries rfl) (isAsking_held phase).symm
  | retry phase reply terminal noSnapshot => exact h.of_eq rfl rfl (isAsking_held phase).symm
  | refuse phase reply => exact h.of_eq (by simp) (hqueries rfl) (isAsking_held phase).symm
  | retract phase answered unsent undenied dated =>
      exact h.of_eq (by simp) (hqueries rfl) (isAsking_held phase).symm
  | wake phase reason => exact h.of_eq rfl (hqueries rfl) (isAsking_held phase).symm
  | leave phase tidy killed dated =>
      exact h.of_eq (by simp) (hqueries rfl) (isAsking_held phase).symm
  | collapse phase tidy alive =>
      exact h.of_eq (by simp) (hqueries rfl) (isAsking_held phase).symm
  | rise phase tidy alive => exact h.of_eq rfl rfl (isAsking_held phase).symm

/-- Nobody but the run opens or closes a client, or begins a query or ends one. -/
theorem accounted_invariant (hopens : plan.strategy.opensClient = true) :
    Invariant plan (fun _ => True) Accounted where
  moves := accounted_stable hopens
  helper _ _ before := before.of_eq rfl rfl rfl
  serve _ before := before.of_eq rfl rfl rfl
  passTime _ _ _ before := before.of_eq rfl rfl rfl
  trigger {w t} before := by cases t <;> exact before.of_eq rfl rfl rfl
  kill {w} _ before := by
    rw [World.kill]
    split <;> exact before.of_eq rfl rfl rfl
  ask _ before := before.of_eq rfl rfl rfl
  withdraw _ before := before.of_eq rfl rfl rfl

/-- A step of the run passes from one place where the run is held up to the next. -/
theorem passes_stepRun (hgo : w.runCanGo = true) : w.Passes plan .held (w.stepRun plan) := by
  have hstable : Stable plan (w.Passes plan) := fun _ _ _ _ hmove hpasses => hpasses.move hmove
  exact hstable.stepRun hgo .here

theorem Accounted.passes (hopens : plan.strategy.opensClient = true)
    (h : Accounted (.held : Point ω) w) {p : Point ω} (hpasses : w.Passes plan p w') :
    Accounted p w' := by
  induction hpasses with
  | here => exact h
  | move before next ih => exact accounted_stable hopens next ih

end World

end Vigil.Watch

namespace Vigil.Eks

open Vigil.Watch

variable {τ ω : Type} [Clock τ] [Wait ω] [Spans ω τ] {plan : Plan τ ω} {w : World τ ω}

theorem IsStrategy.opensClient {strategy : Strategy} (h : IsStrategy strategy) :
    strategy.opensClient = true := by
  cases h <;> rfl

/-- Whatever the service answers and whenever the task of the run is cancelled, a watch of a cluster
or of an update has opened one client for each query that it began, and only a query that is under
way has a client that is open.  This is so at every point that the run passes, and not only where
others could see it. -/
theorem closes_clients (hstrategy : IsStrategy plan.strategy) {now : τ}
    {cancellation : Cancellation τ} {stopped : Bool} {stream : Stream (Event τ)}
    {actions : List (Action τ)}
    (hact : (World.start now cancellation stopped stream).actAll? plan actions = some w)
    {p : Point ω} {w' : World τ ω} (hpasses : w.Passes plan p w') :
    w'.clients.opened = w'.queryTimes.length ∧
      w'.clients.stillOpen = if w'.isAsking p then 1 else 0 := by
  have hstart : World.Accounted (.held : Point ω)
      (World.start now cancellation stopped stream) := ⟨rfl, rfl⟩
  have hopens := hstrategy.opensClient
  have hheld := (World.accounted_invariant hopens).actAll (fun _ _ => trivial) hact hstart
  have haccount := hheld.passes hopens hpasses
  exact ⟨haccount.opened, haccount.stillOpen⟩

/-- A cluster whose second description takes five seconds. -/
def sluggish : Plan Int Int where
  config := ⟨"demo", .word (.cluster .active), [], 0, 1⟩
  strategy := clusterStrategy
  services
    | 0 => ⟨none, [], .response (.table [("cluster", .table [("status", .text "CREATING")])])⟩
    | _ => ⟨some 5, [], .failure (.foreign "TimeoutError" [])⟩
  hook := none
  heard := true

/-- The second query is under way for two seconds when the task of the run is cancelled. -/
def killedMidQuery : List (Action Int) :=
  [.run, .serve 0, .run, .helper 0, .helper 1, .passTime 1, .run, .helper 0, .helper 0, .run,
    .passTime 3, .kill]

/-- The query has a client until the run finds out, and in the step in which it does the client is
closed. -/
theorem closes_clients_of_sluggish :
    ∃ w : World Int Int,
      (World.start 0 ⟨false, none⟩ false ⟨10, [], false⟩).actAll? sluggish killedMidQuery =
        some w ∧
      w.run.phase.isQuerying = true ∧ w.clients = ⟨2, 1⟩ ∧
      w.Passes sluggish .held (w.stepRun sluggish) ∧
      (w.stepRun sluggish).ending? = some .cancelled ∧
      (w.stepRun sluggish).queryTimes = [0, 1] ∧
      (w.stepRun sluggish).clients.opened = (w.stepRun sluggish).queryTimes.length ∧
      (w.stepRun sluggish).clients.stillOpen =
        if (w.stepRun sluggish).isAsking (.held : Point Int) then 1 else 0 := by
  obtain ⟨w, hact, hquerying, hopen, hgo, hending, hqueries⟩ : ∃ w : World Int Int,
      (World.start 0 ⟨false, none⟩ false ⟨10, [], false⟩).actAll? sluggish killedMidQuery =
        some w ∧
      w.run.phase.isQuerying = true ∧ w.clients = ⟨2, 1⟩ ∧ w.runCanGo = true ∧
      (w.stepRun sluggish).ending? = some .cancelled ∧
      (w.stepRun sluggish).queryTimes = [0, 1] := ⟨_, rfl, rfl, rfl, rfl, rfl, rfl⟩
  have hpasses : w.Passes sluggish .held (w.stepRun sluggish) := World.passes_stepRun hgo
  exact ⟨w, hact, hquerying, hopen, hpasses, hending, hqueries,
    closes_clients .cluster hact hpasses⟩

end Vigil.Eks
