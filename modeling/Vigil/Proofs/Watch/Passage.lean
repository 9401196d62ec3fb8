import Vigil.Proofs.Watch.Upkeep

/-!
# What a run does to its stream

Each move of a run is a few steps on its stream, and most are none.  So what the parties on a stream
keep among themselves is kept by the whole watch as long as its consumers do nothing new.
-/

namespace Vigil.Watch

open Vigil.Stream (Traffic)

variable {τ ω : Type}

/-- A step on a stream that a run takes, or that lets somebody look. -/
def OfRun : Stream.Step PartyId (Event τ) → Prop
  | .start (.run _) (.send _) => True
  | .serve _ => True
  | .withdraw (.run _) => True
  | .close => True
  | .sendFinal _ => True
  | _ => False

/-- One state of a stream leads to another by steps of the run. -/
def Passage (t t' : Traffic PartyId (Event τ)) : Prop :=
  ∃ steps : List (Stream.Step PartyId (Event τ)), (∀ s ∈ steps, OfRun s) ∧ t' = t.stepAll steps

namespace Passage

variable {t t' : Traffic PartyId (Event τ)}

theorem refl (t : Traffic PartyId (Event τ)) : Passage t t := ⟨[], nofun, rfl⟩

theorem of_eq (h : t' = t) : Passage t t' := h ▸ refl t

theorem of_step {s : Stream.Step PartyId (Event τ)} (hs : OfRun s) (h : t' = t.step s) :
    Passage t t' := by
  refine ⟨[s], ?_, h⟩
  simpa using hs

theorem keeps {holds : Traffic PartyId (Event τ) → Prop}
    (hstep : ∀ ⦃t s⦄, OfRun s → holds t → holds (t.step s)) (h : Passage t t') (hbefore : holds t) :
    holds t' := by
  obtain ⟨steps, hsteps, rfl⟩ := h
  induction steps generalizing t with
  | nil => exact hbefore
  | cons s steps ih =>
      refine ih ?_ fun s' hs' => hsteps s' (List.mem_cons_of_mem _ hs')
      exact hstep (hsteps s List.mem_cons_self) hbefore

theorem of_books {w w₁ : World τ ω} (h : Passage w₁.traffic t') (hbooks : w₁.books = w.books) :
    Passage w.traffic t' := by
  have htraffic : w₁.traffic = w.traffic := congrArg Books.traffic hbooks
  rwa [htraffic] at h

end Passage

namespace World

theorem passage_breakDown (w : World τ ω) (how : Ending) :
    Passage w.traffic (w.breakDown how).traffic :=
  .of_step (s := .close) trivial w.shut_traffic

theorem passage_withFarewell (plan : Plan τ ω) (w : World τ ω) :
    Passage w.traffic (w.withFarewell plan).traffic :=
  .of_step (s := .sendFinal (killedEvent plan)) trivial (shutWith_traffic _ _)

theorem passage_send (w : World τ ω) (event : Event τ) :
    Passage w.traffic (w.send event).traffic := by
  have hstart : OfRun (.start (.run w.run.sends) (.send event)) := trivial
  have hwithdraw : OfRun (τ := τ) (.withdraw (.run w.run.sends)) := trivial
  cases hkilled : w.run.killed with
  | false => exact .of_step hstart (by simp [send, hkilled, Traffic.step])
  | true =>
      refine ⟨[.start (.run w.run.sends) (.send event), .withdraw (.run w.run.sends)], ?_, ?_⟩
      · simpa using ⟨hstart, hwithdraw⟩
      · simp [send, hkilled, Traffic.step, Traffic.stepAll]

variable [Clock τ] [Wait ω] [Spans ω τ] {plan : Plan τ ω}

/-- What a move does to the stream is a few steps of the run. -/
theorem Move.passage {w w' : World τ ω} {p p' : Point ω} (h : Move plan w p p' w') :
    Passage w.traffic w'.traffic := by
  have hstill {w' : World τ ω} (hbooks : w'.books.traffic = w.books.traffic) :
      Passage w.traffic w'.traffic := .of_eq hbooks
  cases h with
  | skip _ _ =>
      exact .of_step (s := .sendFinal (killedEvent plan)) trivial (shutWith_traffic _ _)
  | start _ _ _ _ => exact hstill (by rw [books_withStart])
  | mute _ _ _ => exact hstill (by rw [books_finish, books_withBegin])
  | choke cause => exact (passage_breakDown _ _).of_books cause.books
  | abort _ _ => exact passage_send _ _
  | ask _ => exact hstill (by rw [books_withQuery])
  | wait _ => exact .refl _
  | atOnce _ => exact .refl _
  | inTime _ _ _ => exact .refl _
  | interrupt _ _ _ => exact (passage_withFarewell plan _).of_books (w.books_closeClient plan)
  | answer => exact hstill (by rw [books_withAnswer])
  | revoke _ => exact passage_withFarewell plan _
  | @fail _ _ notes _ _ _ => exact (passage_breakDown _ _).of_books (w.books_noteAll notes)
  | @publish _ _ notes _ _ _ => exact (passage_send _ _).of_books (w.books_noteAll notes)
  | finish _ _ _ => exact passage_breakDown _ _
  | grace _ _ _ _ _ => exact hstill (by rw [books_withGrace, books_withHook])
  | progress _ _ _ _ => exact hstill (by rw [books_withHook])
  | retry _ _ _ _ => exact .refl _
  | refuse _ _ => exact passage_breakDown _ _
  | retract _ _ _ _ _ => exact passage_withFarewell plan _
  | sleep _ _ => exact hstill (by rw [books_goTo, books_withPause])
  | overrun _ _ => exact hstill (by rw [books_goTo, books_dismissHelpers, books_withPause])
  | hurry _ => exact .refl _
  | wake _ _ => exact .refl _
  | leave _ _ _ _ => exact passage_withFarewell plan _
  | collapse _ _ _ => exact passage_breakDown _ _
  | rise _ _ _ => exact .refl _

end World

/-- The consumers do nothing new. -/
def Action.IsQuiet : Action τ → Prop
  | .ask _ _ => False
  | .withdraw _ => False
  | _ => True

theorem Action.IsQuiet.tame {action : Action τ} (h : action.IsQuiet) (lone : Prop) :
    Tame lone action := by
  cases action with
  | ask consumer request => exact h.elim
  | withdraw consumer => exact h.elim
  | _ => exact ⟨trivial, fun _ => trivial⟩

variable [Clock τ] [Wait ω] [Spans ω τ] {plan : Plan τ ω}

/-- What certain steps on a stream keep is kept by a watch on whose stream nothing else happens: the
steps are all that its run takes and all that its consumers take. -/
theorem traffic_invariant {allowed : Action τ → Prop}
    (may : Stream.Step PartyId (Event τ) → Prop) (holds : Traffic PartyId (Event τ) → Prop)
    (hrun : ∀ s, OfRun s → may s)
    (hask : ∀ consumer request, allowed (.ask consumer request) →
      may (.start (.consumer consumer) request))
    (hwithdraw : ∀ consumer, allowed (.withdraw consumer) → may (.withdraw (.consumer consumer)))
    (hstep : ∀ ⦃t s⦄, may s → holds t → holds (t.step s)) :
    World.Invariant plan allowed fun _ w => holds w.traffic where
  moves := fun _ _ _ _ hmove h => hmove.passage.keeps (fun _ s hs => hstep (hrun s hs)) h
  helper _ _ before := before
  serve {_ position} _ before := hstep (s := .serve position) (hrun _ trivial) before
  passTime _ _ _ before := before
  trigger {w t} before := by
    have htraffic : (w.trigger t).traffic = w.traffic := congrArg Books.traffic (w.books_trigger t)
    rwa [htraffic]
  kill {w} _ before := by
    rw [World.kill]
    split
    · exact before
    · rename_i ticket event hphase
      exact hstep (s := .withdraw (.run ticket)) (hrun _ trivial) before
    · exact before
  ask may before := hstep (hask _ _ may) before
  withdraw may before := hstep (hwithdraw _ may) before

/-- What every step on a stream keeps is kept by every watch. -/
theorem stream_invariant (holds : Traffic PartyId (Event τ) → Prop)
    (hstep : ∀ ⦃t⦄ s, holds t → holds (t.step s)) :
    World.Invariant plan (fun _ => True) fun _ w => holds w.traffic :=
  traffic_invariant (fun _ => True) holds (fun _ _ => trivial) (fun _ _ _ => trivial)
    (fun _ _ => trivial) fun _ s _ h => hstep s h

/-- What every step of the run on its stream keeps is kept by a watch with quiet consumers. -/
theorem quiet_invariant {holds : Traffic PartyId (Event τ) → Prop}
    (hstep : ∀ ⦃t s⦄, OfRun s → holds t → holds (t.step s)) :
    World.Invariant plan Action.IsQuiet fun _ w => holds w.traffic :=
  traffic_invariant OfRun holds (fun _ hs => hs) (fun _ _ hquiet => hquiet.elim)
    (fun _ hquiet => hquiet.elim) hstep

end Vigil.Watch
