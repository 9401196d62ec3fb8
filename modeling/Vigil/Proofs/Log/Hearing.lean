import Mathlib.Data.List.Induction
import Vigil.Proofs.Log.Removal

/-!
# Who hears what

Handlers come and go, logging is set up and taken down, and records are logged in between.  What a
handler has shown in the end is made up of single records, each of which is shown or not by what was
so at its own moment: the handler was there, the package was let through, and the handler shows such
records.  Whatever was requested before matters only for these, and whatever comes after for none.
-/

namespace Vigil.Log

variable {τ : Type}

/-- Where nobody listens, a record is not shown. -/
theorem Desk.emit_of_unheard {d : Desk τ} {r : Record τ} (h : d.hears r.origin = false) :
    d.emit r = d := by
  rw [Desk.emit]
  split_ifs with hlet
  · rw [hears, hlet, Bool.and_true, Bool.not_eq_false', List.isEmpty_iff] at h
    have hnobody : d.handlers.filter (fun h => h.shows r) = [] := by rw [h, List.filter_nil]
    rw [hnobody, List.map_nil, List.append_nil]
  · rfl

/-! ### Requests -/

/-- What can be requested of a desk. -/
inductive Request (τ : Type) where
  | setUp (config : Config) (console : Target) (now : Calendar.Moment)
  | tearDown (ids : List Nat)
  /-- The application installs a handler of its own. -/
  | install (target : Target) (threshold : Nat) (scope : Option String)
  /-- The application removes a handler. -/
  | uninstall (id : Nat)
  | emit (r : Record τ)
  /-- A record whose level is only named. -/
  | emitNamed (level : Value) (r : Record τ)

namespace Request

/-- The record that is logged. -/
def record? : Request τ → Option (Record τ)
  | .emit r => some r
  | .emitNamed level r =>
      (Level.ofValue level).toOption.map fun level => { r with level := level }
  | _ => none

/-- Whether logging is set up or taken down. -/
def turns? : Request τ → Option Bool
  | .setUp _ _ _ => some true
  | .tearDown _ => some false
  | _ => none

end Request

/-- A desk in use, with the ids that those who set up logging were given. -/
structure Use (τ : Type) where
  desk : Desk τ
  given : List Nat

namespace Use

/-- What a request that does not fail comes to. -/
inductive Granted (u : Use τ) : Request τ → Use τ → Prop
  | setUp {config : Config} {console : Target} {now : Calendar.Moment} {d : Desk τ}
      {added : List Handler} (speaks : d.enabled = true)
      (extended : Desk.Extended u.desk d config.level added) :
      Granted u (.setUp config console now) ⟨d, u.given ++ added.map Handler.id⟩
  | tearDown {ids : List Nat} (given : ∀ id ∈ ids, id ∈ u.given) :
      Granted u (.tearDown ids) ⟨{ u.desk.without ids with enabled := false }, u.given⟩
  | install {target : Target} {threshold : Nat} {scope : Option String} :
      Granted u (.install target threshold scope) ⟨u.desk.add target threshold scope, u.given⟩
  | uninstall {id : Nat} : Granted u (.uninstall id) ⟨u.desk.without [id], u.given⟩
  | emit {request : Request τ} {r : Record τ} (record : request.record? = some r)
      (still : request.turns? = none) : Granted u request ⟨u.desk.emit r, u.given⟩
  /-- Nobody listens, and the name of a level is not looked at. -/
  | unheard {request : Request τ} (record : request.record? = none)
      (still : request.turns? = none) : Granted u request u

section Granted

variable {u u' : Use τ} {request : Request τ} {h : Handler}

theorem Granted.enabled (hgranted : Granted u request u') :
    u'.desk.enabled = request.turns?.getD u.desk.enabled := by
  cases hgranted with
  | setUp speaks _ => exact speaks
  | tearDown _ => rfl
  | install => rfl
  | uninstall => rfl
  | emit _ still =>
      rw [still]
      exact (u.desk.handlers_emit _).2.2
  | unheard _ still => rw [still, Option.getD_none]

/-- A handler that a request brings has a new id. -/
theorem Granted.handlers (hgranted : Granted u request u') :
    u.desk.nextId ≤ u'.desk.nextId ∧
      ∀ h ∈ u'.desk.handlers, h ∈ u.desk.handlers ∨ u.desk.nextId ≤ h.id := by
  cases hgranted with
  | setUp _ extended =>
      rw [extended.nextId, extended.handlers]
      refine ⟨Nat.le_add_right _ _, fun h hmem => (List.mem_append.mp hmem).imp id fun hnew => ?_⟩
      exact (extended.nextId_le hnew).1
  | tearDown _ => exact ⟨Nat.le_refl _, fun h hmem => .inl (List.mem_filter.mp hmem).1⟩
  | install =>
      refine ⟨Nat.le_succ _, fun h hmem => (List.mem_append.mp hmem).imp id fun hnew => ?_⟩
      exact Nat.le_of_eq (congrArg Handler.id (List.mem_singleton.mp hnew)).symm
  | uninstall => exact ⟨Nat.le_refl _, fun h hmem => .inl (List.mem_filter.mp hmem).1⟩
  | emit _ _ =>
      rw [(u.desk.handlers_emit _).1, (u.desk.handlers_emit _).2.1]
      exact ⟨Nat.le_refl _, fun h hmem => .inl hmem⟩
  | unheard _ _ => exact ⟨Nat.le_refl _, fun h hmem => .inl hmem⟩

/-- Ids are given once. -/
structure Orderly (u : Use τ) : Prop where
  numbered : u.desk.Numbered
  given : ∀ id ∈ u.given, id < u.desk.nextId

theorem Orderly.granted (horderly : Orderly u) (hgranted : Granted u request u') :
    Orderly u' := by
  have hlater := hgranted.handlers.1
  have hold : ∀ id ∈ u.given, id < u'.desk.nextId := fun id hid =>
    Nat.lt_of_lt_of_le (horderly.given id hid) hlater
  cases hgranted with
  | setUp _ extended =>
      refine ⟨extended.numbered horderly.numbered, fun id hid => ?_⟩
      rcases List.mem_append.mp hid with hgiven | hnew
      · exact hold id hgiven
      · obtain ⟨handler, hhandler, rfl⟩ := List.mem_map.mp hnew
        exact (extended.nextId_le hhandler).2
  | tearDown _ => exact ⟨(horderly.numbered.without _).congr rfl rfl, hold⟩
  | install => exact ⟨horderly.numbered.add _ _ _, hold⟩
  | uninstall => exact ⟨horderly.numbered.without _, hold⟩
  | emit _ _ =>
      exact ⟨horderly.numbered.emit _, hold⟩
  | unheard _ _ => exact horderly

/-- No other handler is installed under the id of this one. -/
def Alone (u : Use τ) (h : Handler) : Prop := ∀ other ∈ u.desk.handlers, other.id = h.id → other = h

/-- The id of a handler was given, and to no other one. -/
structure Known (u : Use τ) (h : Handler) : Prop where
  below : h.id < u.desk.nextId
  alone : Alone u h

theorem known_of_mem (horderly : Orderly u) (hmem : h ∈ u.desk.handlers) : Known u h :=
  ⟨horderly.numbered.below h hmem, fun _ hother hid =>
    List.inj_on_of_nodup_map horderly.numbered.distinct hother hmem hid⟩

/-- Whether a handler is still installed or not, nobody gets its id. -/
theorem Known.granted (hknown : Known u h) (hgranted : Granted u request u') : Known u' h := by
  obtain ⟨hlater, hhandlers⟩ := hgranted.handlers
  refine ⟨Nat.lt_of_lt_of_le hknown.below hlater, fun other hother hid => ?_⟩
  rcases hhandlers other hother with hold | hnew
  · exact hknown.alone other hold hid
  · rw [hid] at hnew
    exact absurd hknown.below (Nat.not_lt.mpr hnew)

/-! ### What one request adds to what was shown -/

/-- A record is shown by a handler that is installed, if it is let through and the handler shows
such records. -/
theorem shownBy_emit (horderly : Orderly u) (halone : Alone u h) (r : Record τ) :
    (u.desk.emit r).shownBy h = u.desk.shownBy h ++
      [r].filter fun r =>
        u.desk.handlers.contains h && (u.desk.letsThrough r.origin && h.shows r) := by
  by_cases hmem : h ∈ u.desk.handlers
  · simp only [List.contains_iff_mem.mpr hmem, Bool.true_and]
    exact Desk.shownBy_emit horderly.numbered hmem r
  · have hgone : u.desk.handlers.contains h = false := by simpa using hmem
    -- nobody else shows anything under its id
    have hnobody : ∀ other ∈ u.desk.handlers, other.id ≠ h.id := fun other hother hid =>
      hmem (halone other hother hid ▸ hother)
    simp only [hgone, Bool.false_and, List.filter_false, List.append_nil]
    rw [Desk.emit]
    split_ifs
    · simp only [Desk.shownBy, List.filter_append, List.map_append, List.append_right_eq_self]
      rw [List.map_eq_nil_iff, List.filter_eq_nil_iff]
      intro delivery hdelivery
      obtain ⟨other, hother, rfl⟩ := List.mem_map.mp hdelivery
      simpa using hnobody other (List.mem_filter.mp hother).1
    · rfl

theorem Granted.shownBy (hgranted : Granted u request u') (horderly : Orderly u)
    (halone : Alone u h) :
    u'.desk.shownBy h = u.desk.shownBy h ++
      request.record?.toList.filter fun r =>
        u.desk.handlers.contains h && (u.desk.letsThrough r.origin && h.shows r) := by
  cases hgranted with
  | setUp _ extended =>
      rw [Desk.shownBy, extended.deliveries]
      exact (List.append_nil _).symm
  | tearDown _ => exact (List.append_nil _).symm
  | install => exact (List.append_nil _).symm
  | uninstall => exact (List.append_nil _).symm
  | emit record _ =>
      rw [record]
      exact shownBy_emit horderly halone _
  | unheard record _ =>
      rw [record]
      exact (List.append_nil _).symm

end Granted

section Requests

variable [Clock τ]

/-- Nothing has been requested yet. -/
def start : Use τ := ⟨.empty, []⟩

/-- The state after a request; `none` if the request fails.  Only handlers whose ids were given are
taken down, while the application may remove any. -/
def grant? (u : Use τ) : Request τ → Option (Use τ)
  | .setUp config console now =>
      match u.desk.setUp config console now with
      | (d, .ok ids) => some ⟨d, u.given ++ ids⟩
      | (_, .error _) => none
  | .tearDown ids =>
      if ids.all u.given.contains then
        match u.desk.tearDown ids with
        | (d, .ok ()) => some ⟨d, u.given⟩
        | (_, .error _) => none
      else none
  | .install target threshold scope => some ⟨u.desk.add target threshold scope, u.given⟩
  | .uninstall id => (u.desk.remove id).toOption.map (⟨·, u.given⟩)
  | .emit r => some ⟨u.desk.emit r, u.given⟩
  | .emitNamed level r =>
      (u.desk.emitNamed level (fun level => { r with level := level }) r.origin).toOption.map
        (⟨·, u.given⟩)

/-- The state after some requests, if none of them fails. -/
def grantAll? (u : Use τ) (requests : List (Request τ)) : Option (Use τ) :=
  requests.foldlM grant? u

variable {u u' : Use τ}

theorem granted_of_emitNamed {level : Value} {r : Record τ} {d : Desk τ}
    (hemit : u.desk.emitNamed level (fun level => { r with level := level }) r.origin = .ok d) :
    Granted u (.emitNamed level r) ⟨d, u.given⟩ := by
  rw [Desk.emitNamed] at hemit
  cases hlevel : Level.ofValue level with
  | error fault =>
      rw [hlevel] at hemit
      split at hemit
      · cases hemit
      · cases hemit
        exact .unheard (by simp [Request.record?, hlevel, Except.toOption]) rfl
  | ok l =>
      have hrecord : (Request.emitNamed level r).record? = some { r with level := l } := by
        simp [Request.record?, hlevel, Except.toOption]
      rw [hlevel] at hemit
      split at hemit
      · rw [Desk.eq_of_log_eq_ok hemit]
        exact .emit hrecord rfl
      · rename_i hunheard
        cases hemit
        have hgranted := Granted.emit (u := u) hrecord rfl
        rwa [Desk.emit_of_unheard (r := { r with level := l })
          (Bool.eq_false_iff.mpr hunheard)] at hgranted

theorem granted_of_grant? {request : Request τ} (hgrant : u.grant? request = some u') :
    Granted u request u' := by
  cases request with
  | setUp config console now =>
      rw [grant?] at hgrant
      split at hgrant
      · rename_i hset
        cases hgrant
        obtain ⟨hspeaks, added, hadded, rfl⟩ := Desk.exists_extended_of_setUp hset
        exact .setUp hspeaks hadded
      · cases hgrant
  | tearDown ids =>
      simp only [grant?, Option.ite_none_right_eq_some] at hgrant
      obtain ⟨hgiven, hgrant⟩ := hgrant
      split at hgrant
      · rename_i htear
        cases hgrant
        rw [Desk.eq_of_tearDown_eq_ok htear]
        exact .tearDown fun id hid => by simpa using List.all_eq_true.mp hgiven id hid
      · cases hgrant
  | install target threshold scope =>
      cases hgrant
      exact .install
  | uninstall id =>
      rw [grant?] at hgrant
      cases hholds : u.desk.holds id with
      | true =>
          rw [Desk.remove_of_holds hholds] at hgrant
          cases hgrant
          exact .uninstall
      | false =>
          rw [Desk.remove_of_not_holds hholds] at hgrant
          cases hgrant
  | emit r =>
      cases hgrant
      exact .emit rfl rfl
  | emitNamed level r =>
      rw [grant?] at hgrant
      cases hemit : u.desk.emitNamed level (fun level => { r with level := level }) r.origin with
      | error fault =>
          rw [hemit] at hgrant
          cases hgrant
      | ok d =>
          rw [hemit] at hgrant
          cases hgrant
          exact granted_of_emitNamed hemit

/-! ### Histories -/

theorem exists_of_grantAll?_append {before after : List (Request τ)}
    (hgrant : u.grantAll? (before ++ after) = some u') :
    ∃ middle, u.grantAll? before = some middle ∧ middle.grantAll? after = some u' := by
  rw [grantAll?, List.foldlM_append] at hgrant
  exact Option.bind_eq_some_iff.mp hgrant

theorem exists_of_grantAll?_cons {request : Request τ} {requests : List (Request τ)}
    (hgrant : u.grantAll? (request :: requests) = some u') :
    ∃ middle, u.grant? request = some middle ∧ middle.grantAll? requests = some u' := by
  rw [grantAll?, List.foldlM_cons] at hgrant
  exact Option.bind_eq_some_iff.mp hgrant

theorem grantAll?_snoc {before : List (Request τ)} (hbefore : u.grantAll? before = some u')
    {request : Request τ} {u'' : Use τ} (hgrant : u'.grant? request = some u'') :
    u.grantAll? (before ++ [request]) = some u'' := by
  rw [grantAll?] at hbefore
  simp [grantAll?, List.foldlM_append, hbefore, hgrant]

/-- What every request keeps holds after all of them. -/
theorem grantAll?_keeps {motive : Use τ → Prop} {requests : List (Request τ)}
    (step : ∀ {u u' : Use τ}, ∀ request ∈ requests, Granted u request u' → motive u → motive u')
    (hgrant : u.grantAll? requests = some u') (h : motive u) : motive u' := by
  induction requests generalizing u with
  | nil =>
      cases hgrant
      exact h
  | cons request requests ih =>
      obtain ⟨middle, hmiddle, hgrant⟩ := exists_of_grantAll?_cons hgrant
      have hfirst := step request List.mem_cons_self (granted_of_grant? hmiddle) h
      exact ih (fun other hother => step other (List.mem_cons_of_mem _ hother)) hgrant hfirst

theorem orderly_of_grantAll? {requests : List (Request τ)}
    (hgrant : start.grantAll? requests = some u) : Orderly u :=
  grantAll?_keeps (motive := Orderly) (fun _ _ hgranted h => h.granted hgranted) hgrant
    ⟨Desk.numbered_empty, nofun⟩

/-- Whether logging was set up when it was last set up or taken down. -/
def speaksAfter (requests : List (Request τ)) : Bool :=
  (requests.filterMap Request.turns?).getLast?.getD false

/-- The handler is installed after some requests. -/
def installedAfter (h : Handler) (requests : List (Request τ)) : Bool :=
  (start.grantAll? requests).any fun u => u.desk.handlers.contains h

theorem enabled_of_grantAll? {requests : List (Request τ)}
    (hgrant : start.grantAll? requests = some u) : u.desk.enabled = speaksAfter requests := by
  induction requests using List.reverseRecOn generalizing u with
  | nil =>
      cases hgrant
      rfl
  | append_singleton requests request ih =>
      obtain ⟨middle, hmiddle, hlast⟩ := exists_of_grantAll?_append hgrant
      obtain ⟨_, hgranted, hlast⟩ := exists_of_grantAll?_cons hlast
      cases hlast
      rw [(granted_of_grant? hgranted).enabled, ih hmiddle, speaksAfter, speaksAfter,
        List.filterMap_append]
      cases hturns : request.turns? <;> simp [hturns]

/-- The records that are logged in the course of some requests, each with what was requested before
it. -/
def emissions (before : List (Request τ)) :
    List (Request τ) → List (List (Request τ) × Record τ)
  | [] => []
  | request :: requests =>
      (request.record?.map fun r => (before, r)).toList ++
        emissions (before ++ [request]) requests

/-- A handler shows a record at the moment at which it is logged. -/
def hears (h : Handler) (emission : List (Request τ) × Record τ) : Bool :=
  installedAfter h emission.1 &&
    ((speaksAfter emission.1 || !isWithin package emission.2.origin) && h.shows emission.2)

/-- What is shown under an id that only one handler ever has are the records that this handler shows
at their own moments, in order. -/
theorem shownBy_of_alone {h : Handler} {before after : List (Request τ)}
    (hbefore : start.grantAll? before = some u)
    (halone : ∀ {between : List (Request τ)} {v : Use τ}, between <+: after →
      u.grantAll? between = some v → Alone v h)
    (hafter : u.grantAll? after = some u') :
    u'.desk.shownBy h =
      u.desk.shownBy h ++ ((emissions before after).filter (hears h)).map Prod.snd := by
  induction after generalizing before u with
  | nil =>
      cases hafter
      exact (List.append_nil _).symm
  | cons request requests ih =>
      obtain ⟨middle, hgrant, hafter⟩ := exists_of_grantAll?_cons hafter
      have hnow (r : Record τ) : hears h (before, r) =
          (u.desk.handlers.contains h && (u.desk.letsThrough r.origin && h.shows r)) := by
        rw [hears, installedAfter, hbefore, Option.any_some, Desk.letsThrough,
          enabled_of_grantAll? hbefore]
      have hlater := ih (grantAll?_snoc hbefore hgrant) (fun hbetween hv =>
        halone ((List.prefix_cons_inj request).mpr hbetween)
          (by rw [grantAll?, List.foldlM_cons, hgrant]; exact hv)) hafter
      have hfirst := (granted_of_grant? hgrant).shownBy (orderly_of_grantAll? hbefore)
        (halone List.nil_prefix rfl)
      rw [hlater, hfirst, emissions, List.filter_append, List.map_append, List.append_assoc]
      cases request.record? with
      | none => rfl
      | some r =>
          simp only [Option.toList_some, Option.map_some, ← hnow, List.filter_singleton]
          cases hears h (before, r) <;> rfl

/-- Handlers that are ever installed under the same id are the same. -/
theorem alone_of_installed {h : Handler} {requests before before' : List (Request τ)} {v : Use τ}
    (hbefore : before <+: requests) (hinstalled : installedAfter h before = true)
    (hbefore' : before' <+: requests) (hv : start.grantAll? before' = some v) : Alone v h := by
  rw [installedAfter, Option.any_eq_true] at hinstalled
  obtain ⟨u, hu, hmem⟩ := hinstalled
  rw [List.contains_iff_mem] at hmem
  have hlater {a b : List (Request τ)} {u v : Use τ} {h : Handler} (hbegin : a <+: b)
      (hu : start.grantAll? a = some u) (hv : start.grantAll? b = some v)
      (hmem : h ∈ u.desk.handlers) : Known v h := by
    obtain ⟨rest, rfl⟩ := hbegin
    obtain ⟨middle, hmiddle, hrest⟩ := exists_of_grantAll?_append hv
    obtain rfl : u = middle := Option.some.inj (hu.symm.trans hmiddle)
    exact grantAll?_keeps (motive := (Known · h)) (fun _ _ hgranted h => h.granted hgranted) hrest
      (known_of_mem (orderly_of_grantAll? hu) hmem)
  rcases List.prefix_or_prefix_of_prefix hbefore hbefore' with hbegin | hbegin
  · exact (hlater hbegin hu hv hmem).alone
  · exact fun other hother hid => ((hlater hbegin hv hu hother).alone h hmem hid.symm).symm

/-- What a handler has shown are the records that it shows at their own moments, in order. -/
theorem shownBy_eq_emissions {h : Handler} {requests before : List (Request τ)}
    (hgrant : start.grantAll? requests = some u) (hbefore : before <+: requests)
    (hinstalled : installedAfter h before = true) :
    u.desk.shownBy h = ((emissions [] requests).filter (hears h)).map Prod.snd :=
  shownBy_of_alone rfl (fun hbetween hv => alone_of_installed hbefore hinstalled hbetween hv) hgrant

/-! ### Handlers of the package and of the application -/

/-- A request installs a handler. -/
def Installs (h : Handler) (before : List (Request τ)) (request : Request τ) : Prop :=
  installedAfter h before = false ∧ installedAfter h (before ++ [request]) = true

theorem installedAfter_eq {requests : List (Request τ)} (h : Handler)
    (hgrant : start.grantAll? requests = some u) :
    installedAfter h requests = u.desk.handlers.contains h := by
  rw [installedAfter, hgrant, Option.any_some]

/-- What handlers have shown in the end. -/
structure Heard (requests : List (Request τ)) (u : Use τ) : Prop where
  /-- A handler that came with a setup has shown, once and in order, the records that were logged
  while it was there and logging was set up, from modules of the package, that reach its level. -/
  own : ∀ {before after : List (Request τ)} {config : Config} {console : Target}
      {now : Calendar.Moment} {h : Handler},
    requests = before ++ .setUp config console now :: after →
      Installs h before (.setUp config console now) →
        ∃ level, Level.ofValue config.level = .ok level ∧
          u.desk.shownBy h =
            ((emissions [] requests).filter fun e =>
              installedAfter h e.1 && speaksAfter e.1 &&
                isWithin package e.2.origin && decide (level.rank ≤ e.2.level.rank)).map Prod.snd
  /-- A handler of the application stays until the application removes it.  Of the records from
  outside the package it has shown all that it shows, whether logging was set up or not. -/
  foreign : ∀ {before after : List (Request τ)} {target : Target} {threshold : Nat}
      {scope : Option String},
    requests = before ++ .install target threshold scope :: after →
      ∃ id, let h : Handler := ⟨id, target, threshold, scope⟩
        Installs h before (.install target threshold scope) ∧
          (.uninstall id ∉ after → h ∈ u.desk.handlers) ∧
          (u.desk.shownBy h).filter (fun r => !isWithin package r.origin) =
            ((emissions [] requests).filter fun e =>
              installedAfter h e.1 && (!isWithin package e.2.origin && h.shows e.2)).map Prod.snd

/-- A handler that a setup brings is one for the package, of the level that was asked for. -/
theorem eq_of_installs_setUp {before : List (Request τ)} {config : Config} {console : Target}
    {now : Calendar.Moment} {h : Handler} (hbefore : start.grantAll? before = some u)
    (hgrant : u.grant? (.setUp config console now) = some u')
    (hinstalls : Installs h before (.setUp config console now)) :
    h.scope = some package ∧
      ∃ level, Level.ofValue config.level = .ok level ∧ h.threshold = level.rank := by
  obtain ⟨hnot, hthere⟩ := hinstalls
  rw [installedAfter_eq h hbefore] at hnot
  rw [installedAfter_eq h (grantAll?_snoc hbefore hgrant)] at hthere
  cases granted_of_grant? hgrant with
  | setUp _ extended =>
      rw [extended.handlers, List.contains_iff_mem, List.mem_append] at hthere
      have hadded := hthere.resolve_left (by simpa using hnot)
      exact ⟨extended.scope h hadded, extended.threshold h hadded⟩
  | emit _ still => cases still
  | unheard _ still => cases still

/-- Handlers whose ids were not given are left where they are. -/
theorem mem_of_not_uninstalled {h : Handler} {requests : List (Request τ)}
    (hgrant : u.grantAll? requests = some u') (hstays : .uninstall h.id ∉ requests)
    (hbelow : h.id < u.desk.nextId) (hforeign : h.id ∉ u.given) (hmem : h ∈ u.desk.handlers) :
    h ∈ u'.desk.handlers := by
  let Kept (u : Use τ) : Prop := h ∈ u.desk.handlers ∧ h.id ∉ u.given ∧ h.id < u.desk.nextId
  suffices hkept : Kept u' from hkept.1
  refine grantAll?_keeps (motive := Kept) ?_ hgrant ⟨hmem, hforeign, hbelow⟩
  rintro u u' request hrequest hgranted ⟨hmem, hforeign, hbelow⟩
  have hbelow' := Nat.lt_of_lt_of_le hbelow hgranted.handlers.1
  cases hgranted with
  | setUp _ extended =>
      refine ⟨?_, fun hid => ?_, hbelow'⟩
      · rw [extended.handlers]
        exact List.mem_append_left _ hmem
      · -- the ids that are given now are new ones
        rcases List.mem_append.mp hid with hold | hnew
        · exact hforeign hold
        · obtain ⟨added, hadded, hid⟩ := List.mem_map.mp hnew
          have hlow := (extended.nextId_le hadded).1
          rw [hid] at hlow
          exact absurd hbelow (Nat.not_lt.mpr hlow)
  | tearDown hgiven =>
      refine ⟨List.mem_filter.mpr ⟨hmem, ?_⟩, hforeign, hbelow'⟩
      simpa using fun hid => hforeign (hgiven h.id hid)
  | install => exact ⟨List.mem_append_left _ hmem, hforeign, hbelow'⟩
  | @uninstall id =>
      refine ⟨List.mem_filter.mpr ⟨hmem, ?_⟩, hforeign, hbelow'⟩
      simpa using fun hid : h.id = id => hstays (hid ▸ hrequest)
  | emit _ _ =>
      refine ⟨?_, hforeign, hbelow'⟩
      rw [(u.desk.handlers_emit _).1]
      exact hmem
  | unheard _ _ => exact ⟨hmem, hforeign, hbelow'⟩

/-- However setups, handlers of the application and records follow each other, each handler shows
what is meant for it. -/
theorem handlers_hear_their_records {requests : List (Request τ)}
    (hgrant : start.grantAll? requests = some u) : Heard requests u where
  own {before after config console now h} hsplit hinstalls := by
    have hbegin : before ++ [.setUp config console now] <+: requests := by
      rw [hsplit]
      exact ⟨after, by rw [List.append_assoc, List.singleton_append]⟩
    have hshown := shownBy_eq_emissions hgrant hbegin hinstalls.2
    rw [hsplit] at hgrant
    obtain ⟨earlier, hearlier, hrest⟩ := exists_of_grantAll?_append hgrant
    obtain ⟨later, hlater, -⟩ := exists_of_grantAll?_cons hrest
    obtain ⟨hscope, level, hlevel, hthreshold⟩ := eq_of_installs_setUp hearlier hlater hinstalls
    refine ⟨level, hlevel, hshown.trans (congrArg _ (List.filter_congr fun e _ => ?_))⟩
    have hshows : h.shows e.2 =
        (decide (level.rank ≤ e.2.level.rank) && isWithin package e.2.origin) := by
      rw [Handler.shows, hscope, hthreshold]
    rw [hears, hshows]
    cases isWithin package e.2.origin <;> simp [Bool.and_assoc]
  foreign {before after target threshold scope} hsplit := by
    have hbegin : before ++ [.install target threshold scope] <+: requests := by
      rw [hsplit]
      exact ⟨after, by rw [List.append_assoc, List.singleton_append]⟩
    have hwhole := hgrant
    rw [hsplit] at hgrant
    obtain ⟨earlier, hearlier, hrest⟩ := exists_of_grantAll?_append hgrant
    obtain ⟨later, hlater, hafter⟩ := exists_of_grantAll?_cons hrest
    have horderly := orderly_of_grantAll? hearlier
    have hsnoc := grantAll?_snoc hearlier hlater
    cases hlater
    let h : Handler := ⟨earlier.desk.nextId, target, threshold, scope⟩
    have hthere : h ∈ (earlier.desk.add target threshold scope).handlers :=
      List.mem_append_right _ (List.mem_singleton_self h)
    have hinstalls : Installs h before (.install target threshold scope) := by
      constructor
      · rw [installedAfter_eq h hearlier]
        simpa using fun hmem => Nat.lt_irrefl _ (horderly.numbered.below h hmem)
      · rw [installedAfter_eq h hsnoc]
        exact List.contains_iff_mem.mpr hthere
    refine ⟨earlier.desk.nextId, hinstalls, fun hstays => ?_, ?_⟩
    · exact mem_of_not_uninstalled hafter hstays (Nat.lt_succ_self _)
        (fun hid => Nat.lt_irrefl _ (horderly.given _ hid)) hthere
    · rw [shownBy_eq_emissions hwhole hbegin hinstalls.2, List.filter_map, List.filter_filter]
      refine congrArg _ (List.filter_congr fun e _ => ?_)
      rw [Function.comp_apply, hears]
      cases isWithin package e.2.origin <;> simp [h]

end Requests

/-- Logging is set up twice, and once taken down by the first ids, which silences the second handler
too, while a handler of the application listens throughout. -/
def nestedSetups : List (Request Int) :=
  let config : Config := .ofFields []
  let log (origin message : String) : Request Int := .emit ⟨0, origin, .info, message, [], none⟩
  [.install .standardError 0 none, log "clusterwait" "early", .setUp config .sink default,
    log "clusterwait.engine" "first", .setUp config .sink default, log "clusterwaiting" "apart",
    log "clusterwait.engine" "both", .tearDown [1], log "clusterwait.engine" "silent",
    log "billing" "other", .setUp config .sink default, log "clusterwait" "again"]

theorem handlers_hear_their_records_of_nestedSetups :
    ∃ u, start.grantAll? nestedSetups = some u ∧ Heard nestedSetups u ∧
      u.desk.handlers.map Handler.id = [0, 2, 3] ∧
      u.desk.deliveries.map (fun delivery => (delivery.handler, delivery.record.message)) =
        [(0, "first"), (1, "first"), (0, "apart"), (0, "both"), (1, "both"), (2, "both"),
          (0, "other"), (0, "again"), (2, "again"), (3, "again")] := by
  obtain ⟨u, hgrant, hids, hshown⟩ : ∃ u, start.grantAll? nestedSetups = some u ∧
      u.desk.handlers.map Handler.id = [0, 2, 3] ∧
      u.desk.deliveries.map (fun delivery => (delivery.handler, delivery.record.message)) =
        [(0, "first"), (1, "first"), (0, "apart"), (0, "both"), (1, "both"), (2, "both"),
          (0, "other"), (0, "again"), (2, "again"), (3, "again")] :=
    ⟨_, rfl, rfl, rfl⟩
  exact ⟨u, hgrant, handlers_hear_their_records hgrant, hids, hshown⟩

end Use

end Vigil.Log
