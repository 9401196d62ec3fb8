import Mathlib.Data.List.Nodup
import Vigil.Log.Desk

/-!
# What handlers of different levels show

A record is shown by each handler or not, whatever the other handlers do with it, and a handler is
known by its id.  So what one handler has shown can be told from the records alone, and of two
handlers for the same records the one with the higher level shows those of the other one that reach
its level, in the same order.
-/

namespace Vigil.Log

variable {τ : Type}

namespace Desk

/-- The records that a handler has shown, in order. -/
def shownBy (d : Desk τ) (h : Handler) : List (Record τ) :=
  (d.deliveries.filter fun delivery => delivery.handler == h.id).map Delivery.record

/-- The records that a handler has shown since an earlier state. -/
def shownSince (before d : Desk τ) (h : Handler) : List (Record τ) :=
  (d.shownBy h).drop (before.shownBy h).length

/-- Gives some records to the handlers, one after the other. -/
def emitAll (d : Desk τ) (records : List (Record τ)) : Desk τ := records.foldl emit d

/-- Logs some records, one after the other. -/
def logAll [Clock τ] (d : Desk τ) (records : List (Record τ)) : Except Fault (Desk τ) :=
  records.foldlM log d

/-- The ids of the handlers are all different, and none of them is still to be given. -/
structure Numbered (d : Desk τ) : Prop where
  distinct : (d.handlers.map Handler.id).Nodup
  below : ∀ h ∈ d.handlers, h.id < d.nextId

/-! ### Ids are given once -/

/-- A desk as it can come about: handlers are installed and removed, logging is set up and taken
down, and records are logged. -/
inductive Reached [Clock τ] : Desk τ → Prop
  | empty : Reached .empty
  | add {d : Desk τ} (before : Reached d) (target : Target) (threshold : Nat)
      (scope : Option String) : Reached (d.add target threshold scope)
  | remove {d d' : Desk τ} {id : Nat} (before : Reached d) (removed : d.remove id = .ok d') :
      Reached d'
  | emit {d : Desk τ} (before : Reached d) (r : Record τ) : Reached (d.emit r)
  | emitNamed {d d' : Desk τ} {level : Value} {recordAt : Level → Record τ} {origin : String}
      (before : Reached d) (emitted : d.emitNamed level recordAt origin = .ok d') : Reached d'
  | setUp {d : Desk τ} (before : Reached d) (config : Config) (console : Target)
      (now : Calendar.Moment) : Reached (d.setUp config console now).1
  | tearDown {d : Desk τ} (before : Reached d) (ids : List Nat) : Reached (d.tearDown ids).1

section Numbered

variable {d d' : Desk τ}

/-- Whatever leaves the handlers alone leaves their numbers alone. -/
theorem Numbered.congr (h : d.Numbered) (hhandlers : d'.handlers = d.handlers)
    (hnext : d'.nextId = d.nextId) : d'.Numbered := by
  constructor
  · rw [hhandlers]
    exact h.distinct
  · rw [hhandlers, hnext]
    exact h.below

theorem numbered_empty : (empty : Desk τ).Numbered := ⟨List.nodup_nil, nofun⟩

theorem Numbered.add (h : d.Numbered) (target : Target) (threshold : Nat)
    (scope : Option String) : (d.add target threshold scope).Numbered := by
  constructor
  · rw [Desk.add, List.map_append, List.nodup_append]
    refine ⟨h.distinct, List.nodup_singleton _, fun id hid id' hid' heq => ?_⟩
    obtain ⟨handler, hhandler, rfl⟩ := List.mem_map.mp hid
    obtain rfl := List.mem_singleton.mp hid'
    exact absurd heq (Nat.ne_of_lt (h.below handler hhandler))
  · intro handler hhandler
    rcases List.mem_append.mp hhandler with hold | hnew
    · exact Nat.lt_succ_of_lt (h.below handler hold)
    · rw [List.mem_singleton.mp hnew]
      exact Nat.lt_succ_self _

theorem Numbered.remove {id : Nat} (h : d.Numbered) (hremove : d.remove id = .ok d') :
    d'.Numbered := by
  rw [Desk.remove] at hremove
  split at hremove
  · cases hremove
    constructor
    · exact h.distinct.sublist (List.filter_sublist.map Handler.id)
    · exact fun handler hhandler => h.below handler (List.mem_filter.mp hhandler).1
  · cases hremove

theorem handlers_emit (d : Desk τ) (r : Record τ) :
    (d.emit r).handlers = d.handlers ∧ (d.emit r).nextId = d.nextId ∧
      (d.emit r).enabled = d.enabled := by
  rw [emit]
  split <;> exact ⟨rfl, rfl, rfl⟩

theorem Numbered.emit (h : d.Numbered) (r : Record τ) : (d.emit r).Numbered :=
  h.congr (d.handlers_emit r).1 (d.handlers_emit r).2.1

theorem eq_of_log_eq_ok [Clock τ] {r : Record τ} (hlog : d.log r = .ok d') : d' = d.emit r := by
  rw [Desk.log] at hlog
  split at hlog
  · exact (Except.ok.inj hlog).symm
  · cases hlog

theorem Numbered.emitNamed [Clock τ] {level : Value} {recordAt : Level → Record τ}
    {origin : String} (h : d.Numbered) (hemit : d.emitNamed level recordAt origin = .ok d') :
    d'.Numbered := by
  rw [Desk.emitNamed] at hemit
  split at hemit
  · split at hemit
    · cases hemit
    · rw [eq_of_log_eq_ok hemit]
      exact h.emit _
  · cases hemit
    exact h

theorem Numbered.addConsole (h : d.Numbered) (config : Config) (target : Target) :
    (d.addConsole config target).1.Numbered := by
  rw [Desk.addConsole]
  split
  · split
    · exact h.add _ _ _
    · exact h
  · exact h

theorem Numbered.addFile (h : d.Numbered) (config : Config) (now : Calendar.Moment) :
    (d.addFile config now).1.Numbered := by
  have htree (tree : Tree) : { d with tree := tree }.Numbered := h.congr rfl rfl
  rw [Desk.addFile]
  repeat' split
  all_goals first | exact h | exact htree _ | exact (htree _).add _ _ _

theorem Numbered.setUp (h : d.Numbered) (config : Config) (console : Target)
    (now : Calendar.Moment) : (d.setUp config console now).1.Numbered := by
  have hconsole : ({ d with enabled := true }.addConsole config console).1.Numbered :=
    (h.congr rfl rfl : { d with enabled := true }.Numbered).addConsole config console
  rw [Desk.setUp]
  split
  · rename_i heq
    rw [heq] at hconsole
    exact hconsole
  · rename_i heq
    rw [heq] at hconsole
    have hfile := hconsole.addFile config now
    split
    · rename_i heq'
      rw [heq'] at hfile
      exact hfile
    · rename_i heq'
      rw [heq'] at hfile
      exact hfile

theorem Numbered.tearDown (h : d.Numbered) (ids : List Nat) : (d.tearDown ids).1.Numbered := by
  induction ids generalizing d with
  | nil => exact h.congr rfl rfl
  | cons id ids ih =>
      rw [Desk.tearDown]
      split
      · exact ih (h.remove ‹_›)
      · exact h

theorem Reached.numbered [Clock τ] (h : d.Reached) : d.Numbered := by
  induction h with
  | empty => exact numbered_empty
  | add _ target threshold scope ih => exact ih.add target threshold scope
  | remove _ removed ih => exact ih.remove removed
  | emit _ r ih => exact ih.emit r
  | emitNamed _ emitted ih => exact ih.emitNamed emitted
  | setUp _ config console now ih => exact ih.setUp config console now
  | tearDown _ ids ih => exact ih.tearDown ids

end Numbered

/-! ### Each handler shows what it shows -/

/-- Of the handlers that pass a test, one has the id of a handler if that handler passes it. -/
theorem filter_id_eq {handlers : List Handler} {h : Handler}
    (hdistinct : (handlers.map Handler.id).Nodup) (hmem : h ∈ handlers) (test : Handler → Bool) :
    (handlers.filter test).filter (fun other => other.id == h.id) = [h].filter test := by
  have hsame : ∀ other ∈ handlers, (other.id == h.id) = (other == h) := by
    intro other hother
    rw [Bool.eq_iff_iff, beq_iff_eq, beq_iff_eq]
    exact ⟨List.inj_on_of_nodup_map hdistinct hother hmem, congrArg Handler.id⟩
  calc (handlers.filter test).filter (fun other => other.id == h.id)
      = (handlers.filter fun other => other.id == h.id).filter test := List.filter_comm ..
    _ = (handlers.filter (· == h)).filter test := by rw [List.filter_congr hsame]
    _ = [h].filter test := by
        rw [List.filter_beq, List.count_eq_one_of_mem hdistinct.of_map hmem]
        rfl

section Shown

variable {d : Desk τ} {h reference : Handler}

theorem shownBy_emit (hnumbered : d.Numbered) (hmem : h ∈ d.handlers) (r : Record τ) :
    (d.emit r).shownBy h =
      d.shownBy h ++ [r].filter fun r => d.letsThrough r.origin && h.shows r := by
  rw [emit]
  cases hlet : d.letsThrough r.origin with
  | false => simp [hlet]
  | true =>
      have hone := filter_id_eq hnumbered.distinct hmem fun other => other.shows r
      simp only [if_true, shownBy, List.filter_append, List.map_append, List.filter_map]
      congr 1
      change List.map _ (List.map _ (List.filter (fun other : Handler => other.id == h.id) _)) = _
      rw [hone]
      cases hshows : h.shows r <;> simp [hshows, hlet]

/-- What a handler shows of some records does not depend on the other handlers. -/
theorem shownBy_emitAll (hnumbered : d.Numbered) (hmem : h ∈ d.handlers)
    (records : List (Record τ)) :
    (d.emitAll records).shownBy h =
      d.shownBy h ++ records.filter fun r => d.letsThrough r.origin && h.shows r := by
  induction records generalizing d with
  | nil => exact (List.append_nil _).symm
  | cons r records ih =>
      obtain ⟨hhandlers, -, henabled⟩ := d.handlers_emit r
      have hlets (origin : String) : (d.emit r).letsThrough origin = d.letsThrough origin := by
        rw [letsThrough, letsThrough, henabled]
      change ((d.emit r).emitAll records).shownBy h = _
      rw [ih (hnumbered.emit r) (hhandlers ▸ hmem), shownBy_emit hnumbered hmem]
      simp only [hlets, List.append_assoc, ← List.filter_append, List.singleton_append]

/-- Records whose instants nobody minds are all given to the handlers. -/
theorem logAll_eq_ok [Clock τ] {records : List (Record τ)}
    (hdated : ∀ r ∈ records, canRecord (d.hears r.origin) r.at_ = true) :
    d.logAll records = .ok (d.emitAll records) := by
  induction records generalizing d with
  | nil => rfl
  | cons r records ih =>
      obtain ⟨hfirst, hrest⟩ := List.forall_mem_cons.mp hdated
      obtain ⟨hhandlers, -, henabled⟩ := d.handlers_emit r
      have hhears (origin : String) : (d.emit r).hears origin = d.hears origin := by
        rw [hears, hears, letsThrough, letsThrough, hhandlers, henabled]
      have hlog : d.log r = .ok (d.emit r) := if_pos hfirst
      rw [logAll, List.foldlM_cons, hlog]
      exact ih fun r hr => by rw [hhears]; exact hrest r hr

/-- Of some records, a handler shows those that it would show alone. -/
theorem shownSince_emitAll (hnumbered : d.Numbered) (hmem : h ∈ d.handlers)
    (records : List (Record τ)) :
    shownSince d (d.emitAll records) h =
      records.filter fun r => d.letsThrough r.origin && h.shows r := by
  rw [shownSince, shownBy_emitAll hnumbered hmem, List.drop_left]

/-- Of two handlers for the same records, the one with the higher level shows the records of the
other one that reach its level. -/
theorem shownSince_of_reference (hnumbered : d.Numbered) (hmem : h ∈ d.handlers)
    (hreference : reference ∈ d.handlers) (hscope : h.scope = reference.scope)
    {records : List (Record τ)} (hlevel : ∀ r ∈ records, reference.threshold ≤ r.level.rank) :
    shownSince d (d.emitAll records) h =
      (shownSince d (d.emitAll records) reference).filter fun r =>
        h.threshold ≤ r.level.rank := by
  rw [shownSince_emitAll hnumbered hmem, shownSince_emitAll hnumbered hreference,
    List.filter_filter]
  refine List.filter_congr fun r hr => ?_
  rw [Handler.shows, Handler.shows, hscope, decide_eq_true (hlevel r hr), Bool.true_and,
    Bool.and_left_comm]

end Shown

end Desk

end Vigil.Log
