import Vigil.Proofs.Watch.Upkeep

/-!
# No observation is lost

The events of a watch are the outcomes of its queries, in order.  At most the newest outcome is not
there yet, and it stays away only from a run that was cut off.  This is the invariant of a watch
read at one moment of it.
-/

namespace Vigil.Watch

variable {τ ω : Type}

/-- The newest observation may be missing on the stream: it is on its way there, or the run was cut
off before it was accepted. -/
def Phase.lags : Phase τ → Bool
  | .sending _ _ => true
  | .ended .finished => false
  | .ended _ => true
  | _ => false

variable [Clock τ] {plan : Plan τ ω} {lone : Prop} {b : Books τ}
variable {readings : List (Reading τ)} {asked : Nat} {prior events aborts : List (Event τ)}

/-! ### What the events of a run can be -/

/-- The events of a run at any moment: they cover its readings, or the event that was to come next
has come, or a cancelled task left its last event behind. -/
inductive Standing (plan : Plan τ ω) (lags : Bool) (readings : List (Reading τ)) (asked : Nat) :
    List (Event τ) → Prop
  | upToDate {events : List (Event τ)} (behind : Matches plan events readings)
      (few : asked ≤ readings.length + 1) : Standing plan lags readings asked events
  | lagging {events : List (Event τ)} (may : lags = true)
      (covers : Covers plan readings asked events) : Standing plan lags readings asked events
  | came {prior : List (Event τ)} {event : Event τ} (next : Next plan readings prior event)
      (few : asked = readings.length) : Standing plan lags readings asked (prior ++ [event])
  | cutOff {prior : List (Event τ)} (may : lags = true) (covers : Covers plan readings asked prior) :
      Standing plan lags readings asked (prior ++ [World.killedEvent plan])

/-! ### The account that the events give -/

/-- The account that the events of a watch give of its readings: first what was observed, then
perhaps that the watch was aborted. -/
structure Account (plan : Plan τ ω) (lags : Bool) (readings : List (Reading τ)) (asked : Nat)
    (observed aborts : List (Event τ)) : Prop where
  outcomes : observed.map some = (readings.take observed.length).map (Reading.outcome plan)
  atMost : observed.length ≤ readings.length
  atLeast : readings.length ≤ observed.length + 1
  upToDate : lags = false → observed.length = readings.length
  /-- Each query waits until the outcome of the one before was accepted. -/
  inTurn : asked ≤ observed.length + 1
  /-- No query follows an outcome that ends the watch. -/
  concluded : ∀ number r event, readings[number]? = some r → r.outcome plan = some event →
    event.isTerminal = true → asked = number + 1
  once : aborts.length ≤ 1
  abort : ∀ event ∈ aborts, IsAbort plan event

theorem Matches.length_eq (h : Matches plan events readings) :
    events.length = readings.length := by
  simpa using congrArg List.length h.outcomes

theorem Matches.outcomes_take (h : Matches plan events readings) (later : List (Reading τ)) :
    events.map some = ((readings ++ later).take events.length).map (Reading.outcome plan) := by
  rw [h.length_eq, List.take_left, h.outcomes]

/-- A reading that ended the watch is none of those whose outcomes did not. -/
theorem Matches.le_of_terminal (h : Matches plan events readings) (later : List (Reading τ))
    {number : Nat} {r : Reading τ} {event : Event τ}
    (hreading : (readings ++ later)[number]? = some r) (hevent : r.outcome plan = some event)
    (hterminal : event.isTerminal = true) : readings.length ≤ number := by
  by_contra hlt
  rw [List.getElem?_append_left (Nat.lt_of_not_le hlt)] at hreading
  have houtcome : (events.map some)[number]? = some (some event) := by
    rw [h.outcomes, List.getElem?_map, hreading, Option.map_some, hevent]
  rw [List.getElem?_map, Option.map_eq_some_iff] at houtcome
  obtain ⟨event', hmember, heq⟩ := houtcome
  have hgoing := h.going event' (List.mem_of_getElem? hmember)
  rw [Option.some.inj heq, hterminal] at hgoing
  cases hgoing

/-- If all readings but the newest went on, only the newest can have ended the watch. -/
theorem Matches.length_eq_of_terminal {earlier : List (Reading τ)} {newest r : Reading τ}
    (h : Matches plan events earlier) {number : Nat} {event : Event τ}
    (hreading : (earlier ++ [newest])[number]? = some r) (hevent : r.outcome plan = some event)
    (hterminal : event.isTerminal = true) : (earlier ++ [newest]).length = number + 1 := by
  have hlast := h.le_of_terminal _ hreading hevent hterminal
  have hbound := (List.getElem?_eq_some_iff.mp hreading).1
  simp only [List.length_append, List.length_singleton] at hbound ⊢
  omega

/-- A stream that is up to date gives a full account. -/
theorem Matches.account {lags : Bool} (h : Matches plan events readings)
    (hasked : asked ≤ readings.length + 1) (honce : aborts.length ≤ 1)
    (habort : ∀ event ∈ aborts, IsAbort plan event) :
    Account plan lags readings asked events aborts where
  outcomes := by simpa using h.outcomes_take []
  atMost := Nat.le_of_eq h.length_eq
  atLeast := by rw [h.length_eq]; exact Nat.le_succ _
  upToDate _ := h.length_eq
  inTurn := by rwa [h.length_eq]
  concluded number r event hreading hevent hterminal := by
    have hlast := h.le_of_terminal [] (by simpa using hreading) hevent hterminal
    have hbound := (List.getElem?_eq_some_iff.mp hreading).1
    omega
  once := honce
  abort := habort

theorem Covers.account (h : Covers plan readings asked events) (honce : aborts.length ≤ 1)
    (habort : ∀ event ∈ aborts, IsAbort plan event) :
    Account plan true readings asked events aborts := by
  cases h with
  | all behind few => exact behind.account few honce habort
  | @allButNewest earlier r split behind few =>
      have hlength := behind.length_eq
      have htotal : readings.length = earlier.length + 1 := by simp [split]
      exact
        { outcomes := by
            rw [split]
            exact behind.outcomes_take [r]
          atMost := by omega
          atLeast := by omega
          upToDate := nofun
          inTurn := by omega
          concluded := by
            intro number r' event hreading hevent hterminal
            rw [split] at hreading
            rw [few, split, behind.length_eq_of_terminal hreading hevent hterminal]
          once := honce
          abort := habort }

/-- The event that was to come next has come. -/
theorem Next.account {lags : Bool} {event : Event τ} (h : Next plan readings prior event) :
    ∃ observed aborts, prior ++ [event] = observed ++ aborts ∧
      Account plan lags readings readings.length observed aborts := by
  cases hterminal : event.isTerminal with
  | false =>
      exact ⟨_, [], (List.append_nil _).symm,
        (h.matches hterminal).account (Nat.le_succ _) (Nat.zero_le 1) nofun⟩
  | true =>
      cases h with
      | aborted behind abort =>
          exact ⟨_, _, rfl, behind.account (Nat.le_succ _) (Nat.le_refl 1) (by simpa using abort)⟩
      | @observed earlier r _ split behind outcome =>
          have hlength := behind.length_eq
          have htotal : readings.length = earlier.length + 1 := by simp [split]
          have hevents : (prior ++ [event]).length = readings.length := by simp [htotal, hlength]
          have haccount : Account plan lags readings readings.length (prior ++ [event]) [] :=
            { outcomes := by
                rw [hevents, List.take_length, split]
                simp [behind.outcomes, outcome]
              atMost := Nat.le_of_eq hevents
              atLeast := by omega
              upToDate := fun _ => hevents
              inTurn := by omega
              concluded := by
                intro number r' event' hreading hevent' hterminal'
                rw [split] at hreading
                rw [split, behind.length_eq_of_terminal hreading hevent' hterminal']
              once := Nat.zero_le 1
              abort := nofun }
          exact ⟨_, [], (List.append_nil _).symm, haccount⟩

theorem Standing.account {lags : Bool} (h : Standing plan lags readings asked events) :
    ∃ observed aborts, events = observed ++ aborts ∧
      Account plan lags readings asked observed aborts := by
  cases h with
  | upToDate behind few =>
      exact ⟨_, [], (List.append_nil _).symm, behind.account few (Nat.zero_le 1) nofun⟩
  | lagging may covers =>
      subst may
      exact ⟨_, [], (List.append_nil _).symm, covers.account (Nat.zero_le 1) nofun⟩
  | came next few =>
      subst few
      exact next.account
  | cutOff may covers =>
      subst may
      exact ⟨_, _, rfl, covers.account (Nat.le_refl 1) (by simpa using .cancelled false)⟩

/-! ### At every moment -/

variable [Wait ω] [Spans ω τ]

theorem Held.standing {phase : Phase τ} (h : Held plan lone b phase) :
    Standing plan phase.lags b.readings b.asked b.traffic.accepted := by
  cases phase with
  | created =>
      obtain ⟨hidle, hfew⟩ : Idle plan _ _ _ ∧ _ := Fresh.idle h
      exact .upToDate hidle.behind (Nat.le_succ_of_le (Nat.le_of_eq hfew))
  | querying number due => exact .upToDate h.1.behind (Nat.le_of_eq h.2.1)
  | sleeping pause due => exact .upToDate h.1.behind (Nat.le_succ_of_le (Nat.le_of_eq h.2))
  | tidying pause defect => exact .upToDate h.1.behind (Nat.le_succ_of_le (Nat.le_of_eq h.2.1))
  | sending ticket event =>
      obtain ⟨hsending, hfew, _⟩ := h
      cases hsending with
      | pending _ _ _ next => exact .lagging rfl (next.covers hfew)
      | denied _ _ _ _ next => exact .lagging rfl (next.covers hfew)
      | withdrawn _ _ _ next => exact .lagging rfl (next.covers hfew)
      | sent _ _ _ _ accepted next =>
          rw [accepted]
          exact .came next hfew
  | ended how =>
      obtain ⟨_, _, _, _, hover⟩ := h
      cases hover with
      | broken _ covers _ => exact .lagging rfl covers
      | unwritten _ covers _ => exact .lagging rfl covers
      | mute _ _ nothing =>
          obtain ⟨hreadings, hasked, hevents⟩ := nothing
          rw [hreadings, hasked, hevents]
          exact .upToDate ⟨rfl, fun _ he => absurd he List.not_mem_nil⟩ (Nat.zero_le _)
      | denied _ _ covers => exact .lagging rfl covers
      | finished _ accepted _ next few =>
          rw [accepted]
          exact .came next few
      | cancelled covers accepted =>
          rcases accepted with accepted | ⟨_, accepted⟩
          · rw [accepted]
            exact .cutOff rfl covers
          · rw [accepted]
            exact .lagging rfl covers

/-- At every moment of a watch whose consumers leave the sending to the run, the events on its
stream are the outcomes of the results of its queries, none lost, repeated, reordered or altered,
and then at most one event that says that the watch was aborted. -/
theorem exists_observed_append_aborts {capacity : Int} {stream : Stream (Event τ)} {now : τ}
    {cancellation : Cancellation τ} {stopped : Bool} {actions : List (Action τ)} {w : World τ ω}
    (hstream : Stream.create capacity = .ok stream)
    (hconsumers : ∀ action ∈ actions, action.OffersNothing)
    (hact : (World.start now cancellation stopped stream).actAll? plan actions = some w) :
    (∀ number r, w.readings[number]? = some r →
      r.number = number ∧ r.result = plan.strategy.read (plan.services number).answer) ∧
    ∃ observed aborts, w.traffic.accepted = observed ++ aborts ∧
      Account plan w.run.phase.lags w.readings w.queryTimes.length observed aborts := by
  have hopen : stream.closed = false := by rw [(Stream.create_eq_ok hstream).1]
  have hsound : Sound plan False .held w.books :=
    sound_of_actAll? hopen (fun action ha => ⟨hconsumers action ha, False.elim⟩) hact
  exact ⟨hsound.kept.numbered, (Held.standing hsound.stage).account⟩

/-- A watch over a service that fails at first and later answers in three seconds. -/
def recovering : Plan Int Int where
  config := ⟨"demo", .plain "up", [], 0, 5⟩
  strategy :=
    { description := "service"
      absentStatus := none
      request := fun _ => []
      opensClient := false
      payloadOf := .ok
      statusOf := .ok
      isAbsent := fun _ => .ok false
      logFields := fun _ => .ok [] }
  services
    | 0 => ⟨none, [], .failure (.foreign "TimeoutError" [])⟩
    | _ => ⟨some 3, [], .response (.text "up")⟩
  hook := none
  heard := true

/-- The task is cancelled while the desired status waits behind a full buffer. -/
def cutOff : List (Action Int) :=
  [.run, .serve 0, .run, .helper 0, .helper 1, .passTime 5, .run, .helper 0, .helper 0, .run,
    .passTime 8, .run, .serve 0, .kill, .serve 0, .run, .ask 0 (.collect []), .serve 0]

/-- The outcome that waited is the one that is missing; the failure before it is there. -/
theorem exists_observed_append_aborts_of_cutOff :
    ∃ (w : World Int Int) (observed aborts : List (Event Int)),
      Stream.create 1 = .ok (⟨1, [], false⟩ : Stream (Event Int)) ∧
      (World.start 0 ⟨false, none⟩ false ⟨1, [], false⟩).actAll? recovering cutOff = some w ∧
      w.readings.length = 2 ∧ w.traffic.accepted.length = 2 ∧
      w.traffic.accepted = observed ++ aborts ∧
      Account recovering w.run.phase.lags w.readings w.queryTimes.length observed aborts := by
  obtain ⟨w, hact, hreadings, haccepted⟩ : ∃ w : World Int Int,
      (World.start 0 ⟨false, none⟩ false ⟨1, [], false⟩).actAll? recovering cutOff = some w ∧
        w.readings.length = 2 ∧ w.traffic.accepted.length = 2 := ⟨_, rfl, rfl, rfl⟩
  have hstream : Stream.create 1 = .ok (⟨1, [], false⟩ : Stream (Event Int)) := rfl
  have hconsumers : ∀ action ∈ cutOff, action.OffersNothing := by
    simp [cutOff, Action.OffersNothing, Stream.Ask.sends]
  obtain ⟨_, observed, aborts, happend, haccount⟩ :=
    exists_observed_append_aborts hstream hconsumers hact
  exact ⟨w, observed, aborts, hstream, hact, hreadings, haccepted, happend, haccount⟩

end Vigil.Watch
