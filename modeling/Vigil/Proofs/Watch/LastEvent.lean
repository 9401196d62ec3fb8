import Vigil.Proofs.Watch.Account

/-!
# How a stream ends

A run that could log its first line closes its stream once, when it ends, and nothing follows a
terminal event.  A run whose task was cancelled still leaves a last event behind.  Only data that
cannot be read, pauses that cannot be counted and records that cannot be made let a run end without
one.
-/

namespace Vigil.Watch

open Vigil.Number (Amount pow10)
open Vigil.Stream (Denial Reply)

variable {τ ω : Type}

namespace World

theorem ending?_eq_some {w : World τ ω} {how : Ending} :
    w.ending? = some how ↔ w.run.phase = .ended how := by
  rw [ending?]
  split <;> simp_all

theorem run_eq_books_run (w : World τ ω) : w.run = w.books.run := rfl

theorem killed_send (w : World τ ω) (event : Event τ) :
    (w.send event).books.run.killed = w.books.run.killed := rfl

variable [Clock τ] [Wait ω] [Spans ω τ] {plan : Plan τ ω}

/-- The run is over and has closed its stream on the way: only one that could not log its first line
does not. -/
def hasShut (w : World τ ω) : Bool :=
  match w.ending? with
  | none => false
  | some (.mute _) => false
  | some _ => true

/-- How often some actions close the stream. -/
def closings (plan : Plan τ ω) (w : World τ ω) : List (Action τ) → Nat
  | [] => 0
  | action :: actions =>
      match w.act? plan action with
      | none => 0
      | some w' =>
          (if w'.traffic.stream.closed && !w.traffic.stream.closed then 1 else 0) +
            w'.closings plan actions

/-! ### What stays -/

/-- A run that is over stays over. -/
theorem ended_invariant (how : Ending) :
    Invariant plan (fun _ => True) fun point w => point = .held ∧ w.run.phase = .ended how where
  moves := by
    rintro w p p' w' hmove ⟨rfl, hphase⟩
    exact absurd hphase (hmove.phase_ne_ended how)
  helper _ _ before := before
  serve _ before := before
  passTime _ _ _ before := before
  trigger before := by rwa [run_eq_books_run, books_trigger]
  kill _ before := by
    rw [World.kill]
    rwa [before.2]
  ask _ before := before
  withdraw _ before := before

/-- No move of a run undoes the cancellation of its task. -/
theorem Move.killed_eq {w w' : World τ ω} {p p' : Point ω} (h : Move plan w p p' w') :
    w'.books.run.killed = w.books.run.killed := by
  cases h with
  | choke cause => simp [breakDown, books_shut, cause.books]
  | _ =>
    simp [withFarewell, breakDown, killed_send, books_shut, books_shutWith, books_withAnswer,
      books_withQuery, books_withPause, books_withBegin, books_withStart, books_withGrace,
      books_record_paused, run_eq_books_run]

theorem killed_invariant :
    Invariant plan (fun _ => True) fun _ w => w.books.run.killed = true where
  moves := fun _ _ _ _ hmove h => hmove.killed_eq.trans h
  helper _ _ before := before
  serve _ before := before
  passTime _ _ _ before := before
  trigger before := by rwa [books_trigger]
  kill _ before := by
    rw [World.kill]
    split
    · exact before
    · rfl
    · rfl
  ask _ before := before
  withdraw _ before := before

/-! ### The grace period has a text -/

omit [Spans ω τ] in
/-- The grace period is one of the two waits that the first line shows. -/
theorem sleepingLine_of_openingLine {w : World τ ω} {line : Log.Note}
    (h : w.openingLine plan = .ok line) : ∃ line, sleepingLine plan = .ok line := by
  rw [openingLine] at h
  cases hinitial : Wait.text plan.config.initialWait with
  | error d => rw [hinitial] at h; cases h
  | ok initial =>
      cases hinterval : Wait.text plan.config.pollInterval with
      | error d => rw [hinitial, hinterval] at h; cases h
      | ok interval =>
          rw [sleepingLine, WaitConfig.grace, Wait.longer]
          split_ifs
          · exact ⟨_, by rw [hinterval]; rfl⟩
          · exact ⟨_, by rw [hinitial]; rfl⟩

/-- A run that logged its first line can write the grace period. -/
theorem spoken_invariant :
    Invariant plan (fun _ => True) fun point w =>
      (∃ line, sleepingLine plan = .ok line) ∨
        point = .held ∧ (w.run.phase = .created ∨
          ∃ how, w.run.phase = .ended how ∧ ∀ d, how ≠ .broken d) where
  moves := by
    rintro w p p' w' hmove (hline | ⟨rfl, hphase⟩)
    · exact .inl hline
    cases hmove with
    | skip _ _ => exact .inr ⟨rfl, .inr ⟨.cancelled, rfl, nofun⟩⟩
    | mute _ _ _ => exact .inr ⟨rfl, .inr ⟨.mute _, rfl, nofun⟩⟩
    | start _ _ opening _ => exact .inl (sleepingLine_of_openingLine opening)
    | choke cause => cases cause <;> simp_all
    | _ => simp_all
  helper _ _ before := before
  serve _ before := before
  passTime _ _ _ before := before
  trigger before := by rwa [run_eq_books_run, books_trigger]
  kill {w} _ before := by rwa [w.kill_still.1]
  ask _ before := before
  withdraw _ before := before

/-! ### The first line -/

/-- The run begins at an instant, and is mute only if it cannot log its first line then. -/
def Opens (plan : Plan τ ω) (now : τ) (w : World τ ω) : Prop :=
  (w.run.phase = .created → w.now = now) ∧
    ∀ d, w.run.phase = .ended (.mute d) → Speechless plan now d

omit [Spans ω τ] in
theorem opens_of_phase {w : World τ ω} {now : τ} (hcreated : w.run.phase ≠ .created)
    (hmute : ∀ d, w.run.phase ≠ .ended (.mute d)) : w.Opens plan now :=
  ⟨fun hphase => absurd hphase hcreated, fun d hphase => absurd hphase (hmute d)⟩

/-- A run begins before time passes. -/
theorem opens_invariant (now : τ) :
    Invariant plan (fun _ => True) fun point w => point = .held → w.Opens plan now where
  moves := by
    rintro w p p' w' hmove before rfl
    cases hmove with
    | mute phase _ cause =>
        refine ⟨nofun, fun d' hended => ?_⟩
        cases hended
        rw [← (before rfl).1 phase]
        exact speechless_of_openingLine cause
    | _ => exact opens_of_phase nofun nofun
  helper _ _ before := before
  serve _ before := before
  passTime {w _} settled _ _ before hheld := by
    refine ⟨fun hcreated => ?_, (before hheld).2⟩
    have hphase : w.run.phase = .created := hcreated
    simp [isSettled, runCanGo, hphase] at settled
  trigger {w t} before hheld := by
    cases t <;> exact before hheld
  kill {w} _ before hheld := by
    have hnow : w.kill.now = w.now := by
      rw [World.kill]
      split <;> rfl
    rw [Opens, w.kill_still.1, hnow]
    exact before hheld
  ask _ before := before
  withdraw _ before := before

omit [Spans ω τ] in
theorem opens_start (now : τ) (cancellation : Cancellation τ) (stopped : Bool)
    (stream : Stream (Event τ)) :
    (World.start now cancellation stopped stream : World τ ω).Opens plan now :=
  ⟨fun _ => rfl, nofun⟩

end World

variable {plan : Plan τ ω} {lone : Prop}
variable {readings : List (Reading τ)} {prior events : List (Event τ)} {event : Event τ}

/-! ### At most one terminal event -/

/-- Events that do not end a watch, and then at most one that does. -/
def Rounded (events : List (Event τ)) : Prop :=
  ∃ (going : List (Event τ)) (final : Option (Event τ)), events = going ++ final.toList ∧
    (∀ event ∈ going, event.isTerminal = false) ∧ ∀ event ∈ final, event.isTerminal = true

theorem rounded_of_going (h : ∀ event ∈ events, event.isTerminal = false) : Rounded events :=
  ⟨events, none, by simp, h, by simp⟩

theorem rounded_append (h : ∀ event ∈ prior, event.isTerminal = false) (event : Event τ) :
    Rounded (prior ++ [event]) := by
  cases hterminal : event.isTerminal with
  | true => exact ⟨prior, some event, rfl, h, by simpa using hterminal⟩
  | false =>
      apply rounded_of_going
      intro e he
      rcases List.mem_append.mp he with he | he
      · exact h e he
      · rw [List.mem_singleton.mp he, hterminal]

theorem killedEvent_isTerminal (plan : Plan τ ω) :
    (World.killedEvent plan : Event τ).isTerminal = true := rfl

variable [Clock τ]

theorem Covers.going {asked : Nat} (h : Covers plan readings asked events) :
    ∀ event ∈ events, event.isTerminal = false := by
  cases h with
  | all behind _ => exact behind.going
  | allButNewest _ behind _ => exact behind.going

theorem Next.going (h : Next plan readings prior event) :
    ∀ event ∈ prior, event.isTerminal = false :=
  (h.covers rfl).going

theorem Standing.rounded {lags : Bool} {asked : Nat}
    (h : Standing plan lags readings asked events) : Rounded events := by
  cases h with
  | upToDate behind _ => exact rounded_of_going behind.going
  | lagging _ covers => exact rounded_of_going covers.going
  | came next _ => exact rounded_append next.going _
  | cutOff _ covers => exact rounded_append covers.going _

/-! ### The stream is closed once -/

section Alone

variable [Wait ω] [Spans ω τ] {w w' : World τ ω}

/-- A stream that nobody else closes is open until the run closes it at its end. -/
theorem Held.closed_eq {phase : Phase τ} (hphase : w.run.phase = phase)
    (h : Held plan True w.books phase) : w.traffic.stream.closed = w.hasShut := by
  rw [World.hasShut, World.ending?, hphase]
  cases phase with
  | created => exact Fresh.unclosed h trivial
  | querying number due => exact h.1.unclosed trivial
  | sleeping pause due => exact h.1.unclosed trivial
  | tidying pause defect => exact h.1.unclosed trivial
  | ended how =>
      cases how with
      | mute d => exact h.2.1 trivial
      | _ => exact h.2.1
  | sending ticket event =>
      obtain ⟨hsending, _, _⟩ := h
      cases hsending with
      | pending _ _ unclosed _ => exact unclosed trivial
      | sent _ _ _ unclosed _ _ => exact unclosed trivial
      | denied _ _ _ notLone _ => exact absurd trivial notLone
      | withdrawn _ _ unclosed _ => exact unclosed trivial

theorem Sound.closed_eq (h : Sound plan True (.held : Point ω) w.books) :
    w.traffic.stream.closed = w.hasShut :=
  Held.closed_eq rfl h.stage

omit [Clock τ] [Wait ω] [Spans ω τ] in
/-- A run that could log its first line has closed its stream as soon as it is over. -/
theorem hasShut_eq (hspoke : ∀ d, w.ending? ≠ some (.mute d)) :
    w.hasShut = w.ending?.isSome := by
  rw [World.hasShut]
  split
  · simp_all
  · exact absurd ‹_› (hspoke _)
  · simp_all

omit [Clock τ] [Wait ω] [Spans ω τ] in
theorem exists_ending?_of_hasShut (hshut : w.hasShut = true) : ∃ how, w.ending? = some how := by
  cases hending : w.ending? with
  | none =>
      rw [World.hasShut, hending] at hshut
      cases hshut
  | some how => exact ⟨how, rfl⟩

/-- What a run did to its stream at its end stays done. -/
theorem hasShut_of_act? {action : Action τ} (hact : w.act? plan action = some w')
    (hshut : w.hasShut = true) : w'.hasShut = true := by
  obtain ⟨how, hending⟩ := exists_ending?_of_hasShut hshut
  have hphase := World.ending?_eq_some.mp hending
  obtain ⟨_, hphase'⟩ := (World.ended_invariant how).act trivial hact ⟨rfl, hphase⟩
  rw [World.hasShut, hending] at hshut
  rwa [World.hasShut, World.ending?_eq_some.mpr hphase']

/-- Some actions close the stream if and only if the run ends by them and looks after its stream. -/
theorem closings_eq {actions : List (Action τ)} (honly : ∀ action ∈ actions, Tame True action)
    (hact : w.actAll? plan actions = some w')
    (h : Sound plan True (.held : Point ω) w.books) :
    w.closings plan actions + w.hasShut.toNat = w'.hasShut.toNat := by
  induction actions generalizing w with
  | nil =>
      cases hact
      exact Nat.zero_add _
  | cons action actions ih =>
      obtain ⟨middle, hmiddle, hact⟩ := World.exists_of_actAll?_cons hact
      have hsound := sound_invariant.act (honly action List.mem_cons_self) hmiddle h
      have hrest := ih (fun a ha => honly a (List.mem_cons_of_mem _ ha)) hact hsound
      -- the first action closes the stream only if it ends the run, and no later one can
      have hstays := hasShut_of_act? hmiddle
      simp only [World.closings, hmiddle, h.closed_eq, hsound.closed_eq]
      rw [← hrest]
      cases hover : w.hasShut with
      | true => simp [hstays hover]
      | false => cases middle.hasShut <;> simp; omega

end Alone

section Ending

variable [Wait ω] [Spans ω τ] {instant : τ} {killed : Bool} {asked : Nat} {how : Ending}

theorem Over.getLast?_of_cancelled
    (h : Over plan True instant killed readings asked events .cancelled) :
    events.getLast? = some (World.killedEvent plan) := by
  cases h with
  | cancelled _ accepted =>
      rcases accepted with accepted | ⟨notLone, _⟩
      · rw [accepted, List.getLast?_concat]
      · exact absurd trivial notLone

/-- A run whose task was cancelled ends as a cancelled one, if it can log that. -/
theorem Over.of_killed (h : Over plan lone instant true readings asked events how) :
    how = .cancelled ∨ (∃ d, how = .broken d) ∧ Undated plan instant := by
  cases h with
  | cancelled _ _ => exact .inl rfl
  | broken alive _ _ => exact .inr ⟨⟨_, rfl⟩, alive rfl⟩
  | finished alive _ _ _ _ => cases alive
  | unwritten alive _ _ => cases alive
  | mute alive _ _ => cases alive
  | denied alive _ _ => cases alive

theorem Over.cause {d : Defect} {line : Log.Note} (hline : World.sleepingLine plan = .ok line)
    (h : Over plan lone instant killed readings asked events (.broken d)) :
    Cause plan instant readings d := by
  cases h with
  | broken _ _ cause => exact cause
  | unwritten _ _ reason =>
      rw [hline] at reason
      cases reason

theorem Over.speechless {d : Defect}
    (h : Over plan lone instant killed readings asked events (.mute d)) :
    Speechless plan instant d := by
  cases h with
  | mute _ reason _ => exact reason

theorem Over.ne_denied {d : Denial}
    (h : Over plan True instant killed readings asked events how) : how ≠ .denied d := by
  rintro rfl
  cases h with
  | denied _ notLone _ => exact notLone trivial

/-- Only a run that broke or could not log its first line leaves no terminal event behind. -/
theorem Over.of_going (h : Over plan True instant killed readings asked events how)
    (hgoing : ∀ event ∈ events, event.isTerminal = false) :
    ∃ d, how = .broken d ∨ how = .mute d := by
  cases h with
  | broken _ _ _ => exact ⟨_, .inl rfl⟩
  | unwritten _ _ _ => exact ⟨_, .inl rfl⟩
  | mute _ _ _ => exact ⟨_, .inr rfl⟩
  | denied _ notLone _ => exact absurd trivial notLone
  | @finished _ event _ accepted terminal _ _ =>
      have hfalse := hgoing event (by simp [accepted])
      rw [terminal] at hfalse
      cases hfalse
  | cancelled _ accepted =>
      rcases accepted with accepted | ⟨notLone, _⟩
      · have hfalse := hgoing (World.killedEvent plan) (by simp [accepted])
        rw [killedEvent_isTerminal] at hfalse
        cases hfalse
      · exact absurd trivial notLone

theorem Sound.over {w : World τ ω} (h : Sound plan lone (.held : Point ω) w.books)
    (hhow : w.ending? = some how) :
    ∃ instant, w.endedAt = some instant ∧
      Over plan lone instant w.run.killed w.readings w.queryTimes.length w.traffic.accepted how :=
  (held_of_phase (World.ending?_eq_some.mp hhow) h.stage).2.2

/-- A run that offers an event has logged its first line. -/
theorem exists_sleepingLine_of_sending {stream : Stream (Event τ)} {now : τ}
    {cancellation : Cancellation τ} {stopped : Bool} {actions : List (Action τ)} {w : World τ ω}
    {ticket : Nat} {event : Event τ}
    (hact : (World.start now cancellation stopped stream).actAll? plan actions = some w)
    (hphase : w.run.phase = .sending ticket event) :
    ∃ line, World.sleepingLine plan = .ok line := by
  have hspoken := World.spoken_invariant.actAll (fun _ _ => trivial) hact (.inr ⟨rfl, .inl rfl⟩)
  rcases hspoken with hline | ⟨_, hcreated | ⟨how, hhow, _⟩⟩
  · exact hline
  · rw [hphase] at hcreated
    cases hcreated
  · rw [hphase] at hhow
    cases hhow

/-- A run that broke had logged its first line. -/
theorem exists_sleepingLine {stream : Stream (Event τ)} {now : τ} {cancellation : Cancellation τ}
    {stopped : Bool} {actions : List (Action τ)} {w : World τ ω} {d : Defect}
    (hact : (World.start now cancellation stopped stream).actAll? plan actions = some w)
    (hbroken : w.ending? = some (.broken d)) :
    ∃ line, World.sleepingLine plan = .ok line := by
  have hspoken := World.spoken_invariant.actAll (fun _ _ => trivial) hact (.inr ⟨rfl, .inl rfl⟩)
  have hphase := World.ending?_eq_some.mp hbroken
  rcases hspoken with hline | ⟨_, hcreated | ⟨how, hhow, hloud⟩⟩
  · exact hline
  · rw [hphase] at hcreated
    cases hcreated
  · rw [hphase] at hhow
    cases hhow
    exact absurd rfl (hloud d)

/-- A task that is cancelled before its run is over is marked as cancelled from then on. -/
theorem killed_of_actAll? {w w₁ : World τ ω} {earlier later : List (Action τ)} {before : World τ ω}
    (hact : before.actAll? plan (earlier ++ .kill :: later) = some w)
    (hearlier : before.actAll? plan earlier = some w₁) (hgoing : w₁.ending? = none) :
    w.run.killed = true := by
  rw [World.actAll?_append, hearlier, Option.bind_some, World.actAll?] at hact
  split at hact
  · rename_i w₂ hkill
    simp only [World.act?, Option.ite_none_right_eq_some, Option.some.injEq] at hkill
    have hmarked : w₂.run.killed = true := by
      rw [← hkill.2, World.kill]
      split
      · rename_i how hphase
        rw [World.ending?_eq_some.mpr hphase] at hgoing
        cases hgoing
      · rfl
      · rfl
    exact World.killed_invariant.actAll (fun _ _ => trivial) hact hmarked
  · cases hact

end Ending

variable [Wait ω] [Spans ω τ]

/-- How a stream fares under a run that is alone in closing it, after some actions. -/
structure Orderly (plan : Plan τ ω) (before : World τ ω) (actions : List (Action τ))
    (w : World τ ω) : Prop where
  rounded : Rounded w.traffic.accepted
  /-- The stream is closed by the end of a run that could log its first line, and once. -/
  closings : (∀ d, w.ending? ≠ some (.mute d)) →
    before.closings plan actions = w.ending?.isSome.toNat
  closed : (∀ d, w.ending? ≠ some (.mute d)) → w.traffic.stream.closed = w.ending?.isSome
  /-- Nothing that the run did to its stream was turned down. -/
  undenied : ∀ ticket d, (PartyId.run ticket, Reply.denied d) ∉ w.traffic.finished
  proceeds : ∀ d, w.ending? ≠ some (.denied d)
  cancelled : w.ending? = some .cancelled →
    w.traffic.accepted.getLast? = some (.cancelled (.cancelled plan.config.resource false))
  /-- A run whose task was cancelled before it was over ends as a cancelled one, if a record can be
  made of that. -/
  killed : ∀ earlier later w₁, actions = earlier ++ .kill :: later →
    before.actAll? plan earlier = some w₁ → w₁.ending? = none → ∀ how, w.ending? = some how →
      how = .cancelled ∨
        (∃ d, how = .broken d) ∧ ∃ instant, w.endedAt = some instant ∧ Undated plan instant
  /-- A run that leaves no terminal event behind was broken, or it could not log its first line. -/
  unfinished : ∀ how, w.ending? = some how →
    (∀ event ∈ w.traffic.accepted, event.isTerminal = false) →
      ∃ instant d, w.endedAt = some instant ∧
        (how = .broken d ∧ Cause plan instant w.readings d ∨
          how = .mute d ∧ Speechless plan instant d)

/-- Whatever happens to a watch whose consumers only receive, its stream ends in order. -/
theorem orderly_of_only_receives {capacity : Int} {stream : Stream (Event τ)} {now : τ}
    {cancellation : Cancellation τ} {stopped : Bool} {actions : List (Action τ)} {w : World τ ω}
    (hstream : Stream.create capacity = .ok stream)
    (honly : ∀ action ∈ actions, action.OnlyReceives)
    (hact : (World.start now cancellation stopped stream).actAll? plan actions = some w) :
    Orderly plan (World.start now cancellation stopped stream) actions w := by
  have hopen : stream.closed = false := by rw [(Stream.create_eq_ok hstream).1]
  have htame : ∀ action ∈ actions, Tame True action := fun action ha =>
    ⟨(honly action ha).offersNothing, fun _ => honly action ha⟩
  have hsound : Sound plan True .held w.books := sound_of_actAll? hopen htame hact
  exact
    { rounded := (Held.standing hsound.stage).rounded
      closings := fun hspoke => by
        rw [← hasShut_eq hspoke]
        exact closings_eq htame hact (sound_start hopen now cancellation stopped)
      closed := fun hspoke => hsound.closed_eq.trans (hasShut_eq hspoke)
      undenied := hsound.kept.undenied trivial
      proceeds := fun d hd => by
        obtain ⟨_, _, hover⟩ := hsound.over hd
        exact hover.ne_denied rfl
      cancelled := fun hhow => by
        obtain ⟨_, _, hover⟩ := hsound.over hhow
        exact hover.getLast?_of_cancelled
      killed := fun earlier later w₁ hsplit hearlier hgoing how hhow => by
        subst hsplit
        obtain ⟨instant, hinstant, hover⟩ := hsound.over hhow
        rw [killed_of_actAll? hact hearlier hgoing] at hover
        exact hover.of_killed.imp_right fun h => ⟨h.1, instant, hinstant, h.2⟩
      unfinished := fun how hhow hgoing => by
        obtain ⟨instant, hinstant, hover⟩ := hsound.over hhow
        obtain ⟨d, rfl | rfl⟩ := hover.of_going hgoing
        · obtain ⟨line, hline⟩ := exists_sleepingLine hact hhow
          exact ⟨instant, d, hinstant, .inl ⟨rfl, hover.cause hline⟩⟩
        · exact ⟨instant, d, hinstant, .inr ⟨rfl, hover.speechless⟩⟩ }

/-- A task that is cancelled while an event waits behind a full buffer leaves its last event there,
and the stream is closed once. -/
theorem orderly_of_cutOff :
    ∃ w : World Int Int,
      Stream.create 1 = .ok (⟨1, [], false⟩ : Stream (Event Int)) ∧
      (∀ action ∈ cutOff, action.OnlyReceives) ∧
      (World.start 0 ⟨false, none⟩ false ⟨1, [], false⟩).actAll? recovering cutOff = some w ∧
      w.ending? = some .cancelled ∧
      (World.start 0 ⟨false, none⟩ false ⟨1, [], false⟩).closings recovering cutOff = 1 ∧
      Orderly recovering (World.start 0 ⟨false, none⟩ false ⟨1, [], false⟩) cutOff w := by
  have hstream : Stream.create 1 = .ok (⟨1, [], false⟩ : Stream (Event Int)) := rfl
  have honly : ∀ action ∈ cutOff, action.OnlyReceives := by
    simp [cutOff, Action.OnlyReceives, Stream.Ask.receives]
  obtain ⟨w, hact, hending⟩ : ∃ w : World Int Int,
      (World.start 0 ⟨false, none⟩ false ⟨1, [], false⟩).actAll? recovering cutOff = some w ∧
        w.ending? = some .cancelled := ⟨_, rfl, rfl⟩
  exact ⟨w, hstream, honly, hact, hending, rfl, orderly_of_only_receives hstream honly hact⟩

/-- A watch whose interval is not below zero is accepted. -/
theorem make_of_not_negative {interval : Amount} (hinterval : Wait.isNegative interval = false) :
    WaitConfig.make (some (.plain "demo")) (some (.plain "up")) [] (some (.whole 0))
      (some interval) = .ok ⟨"demo", .plain "up", [], .whole 0, interval⟩ := by
  have hzero : Wait.isNegative (Amount.whole 0) = false := by decide +kernel
  simp [WaitConfig.make, Label.text, hinterval, hzero, pure, Except.pure]

/-- A watch whose pauses are longer than the clock can count, over a service that always fails.
Nothing else is wrong with it. -/
def overlong : Plan Float Amount where
  config := ⟨"demo", .plain "up", [], .whole 0, .whole (pow10 400)⟩
  strategy := recovering.strategy
  services _ := ⟨none, [], .failure (.foreign "TimeoutError" [])⟩
  hook := none
  heard := true

/-- A watch that is given a wait which has no text. -/
def unspeakable : Plan Float Amount :=
  { overlong with config := ⟨"demo", .plain "up", [], .whole 0, .whole (pow10 4300)⟩ }

/-- A watch over a service that always fails, with a pause that goes on beyond the calendar. -/
def timeless : Plan Float Amount :=
  { overlong with config := ⟨"demo", .plain "up", [], .whole 0, .whole (2 * pow10 12)⟩ }

/-- The first query fails, and the run sleeps while the calendar ends. -/
def asleepForAges : List (Action Float) :=
  [.run, .serve 0, .run, .helper 0, .helper 1, .passTime 1e12]

/-- The parameters of these watches are accepted and their strategy reads everything.  Still the run
of the first ends without a terminal event, that of the second never closes its stream, and the
third watch breaks beyond the calendar: on a failed query, and without a last event also when its
task is cancelled. -/
theorem overlong_ends_without_terminal :
    (∀ plan ∈ [overlong, unspeakable, timeless],
      WaitConfig.make (some (.plain "demo")) (some (.plain "up")) [] (some (.whole 0))
          (some plan.config.pollInterval) = .ok plan.config ∧
        (∀ payload, ∃ status, plan.strategy.statusOf payload = .ok status) ∧
        (∀ payload, ∃ fields, plan.strategy.logFields payload = .ok fields) ∧
        ∀ f, ∃ gone, plan.strategy.isAbsent f = .ok gone) ∧
      (∃ w : World Float Amount,
        (World.start Clock.zero ⟨false, none⟩ false ⟨1, [], false⟩).actAll? overlong
          [.run, .serve 0, .run, .helper 0, .helper 0, .run] = some w ∧
        w.ending? = some (.broken .tooLarge) ∧
        ∀ event ∈ w.traffic.accepted, event.isTerminal = false) ∧
      (∃ w : World Float Amount,
        (World.start Clock.zero ⟨false, none⟩ false ⟨1, [], false⟩).actAll? unspeakable [.run] =
          some w ∧
        w.ending? = some (.mute .unwritable) ∧ w.traffic.stream.closed = false) ∧
      (∃ w : World Float Amount,
        (World.start Clock.zero ⟨false, none⟩ false ⟨1, [], false⟩).actAll? timeless
          (asleepForAges ++ [.passTime 2e12, .run, .helper 0, .helper 0, .run]) = some w ∧
        w.queryTimes.length = 2 ∧ w.ending? = some (.broken .tooLarge) ∧
        ∀ event ∈ w.traffic.accepted, event.isTerminal = false) ∧
      ∃ w : World Float Amount,
        (World.start Clock.zero ⟨false, none⟩ false ⟨1, [], false⟩).actAll? timeless
          (asleepForAges ++ [.kill, .run, .helper 0, .helper 0, .run]) = some w ∧
        w.run.killed = true ∧ w.ending? = some (.broken .tooLarge) ∧
        ∀ event ∈ w.traffic.accepted, event.isTerminal = false := by
  have hsigns : ∀ plan ∈ [overlong, unspeakable, timeless],
      Wait.isNegative plan.config.pollInterval = false := by
    decide +kernel
  refine ⟨fun plan hplan => ⟨?_, ?_⟩, by decide +kernel, by decide +kernel, by decide +kernel,
    by decide +kernel⟩
  · have hsign := hsigns plan hplan
    simp only [List.mem_cons, List.not_mem_nil, or_false] at hplan
    rcases hplan with rfl | rfl | rfl <;> exact make_of_not_negative hsign
  · simp only [List.mem_cons, List.not_mem_nil, or_false] at hplan
    rcases hplan with rfl | rfl | rfl <;>
      exact ⟨fun v => ⟨v, rfl⟩, fun _ => ⟨[], rfl⟩, fun _ => ⟨false, rfl⟩⟩

end Vigil.Watch
