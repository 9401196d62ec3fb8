import Vigil.Proofs.Log.Levels

/-!
# Taking handlers down again

Whoever sets up logging is given the ids of new handlers, each of which is given to nobody else, and
hands them back when logging is taken down.  Handlers are removed one after the other, and the
package is silenced only after the last one.  So whether everything is cleared away depends on what
the application has removed in the meantime: the first handler that is missing is where it ends.
-/

namespace Vigil.Log.Desk

variable {τ : Type} {d d' d'' : Desk τ}

/-- A handler with the id is installed. -/
def holds (d : Desk τ) (id : Nat) : Bool := d.handlers.any fun h => h.id == id

/-- The desk when some handlers are removed. -/
def without (d : Desk τ) (ids : List Nat) : Desk τ :=
  { d with handlers := d.handlers.filter fun h => !ids.contains h.id }

/-- None of some handlers is installed, and the package is silent. -/
def Cleared (d : Desk τ) (ids : List Nat) : Prop :=
  (∀ id ∈ ids, d.holds id = false) ∧ d.enabled = false

/-! ### New handlers -/

/-- A desk got new handlers, all for the package and of one level, and has shown nothing more. -/
structure Extended (d d' : Desk τ) (level : Value) (added : List Handler) : Prop where
  handlers : d'.handlers = d.handlers ++ added
  ids : added.map Handler.id = List.range' d.nextId added.length
  nextId : d'.nextId = d.nextId + added.length
  deliveries : d'.deliveries = d.deliveries
  scope : ∀ h ∈ added, h.scope = some package
  threshold : ∀ h ∈ added, ∃ l, Level.ofValue level = .ok l ∧ h.threshold = l.rank

namespace Extended

variable {level : Value} {added added' : List Handler}

theorem refl (level : Value) (hhandlers : d'.handlers = d.handlers) (hnext : d'.nextId = d.nextId)
    (hdeliveries : d'.deliveries = d.deliveries) : Extended d d' level [] :=
  ⟨by rw [hhandlers, List.append_nil], rfl, hnext, hdeliveries, nofun, nofun⟩

theorem trans (h : Extended d d' level added) (h' : Extended d' d'' level added') :
    Extended d d'' level (added ++ added') where
  handlers := by rw [h'.handlers, h.handlers, List.append_assoc]
  ids := by rw [List.map_append, h.ids, h'.ids, h.nextId, List.length_append, List.range'_append_1]
  nextId := by rw [h'.nextId, h.nextId, List.length_append, Nat.add_assoc]
  deliveries := h'.deliveries.trans h.deliveries
  scope handler hmem := (List.mem_append.mp hmem).elim (h.scope handler) (h'.scope handler)
  threshold handler hmem :=
    (List.mem_append.mp hmem).elim (h.threshold handler) (h'.threshold handler)

/-- The folders and the file of a handler are made before it is added. -/
theorem add (d : Desk τ) (tree : Tree) (target : Target) {l : Level}
    (hlevel : Level.ofValue level = .ok l) :
    Extended d ({ d with tree := tree }.add target l.rank (some package)) level
      [⟨d.nextId, target, l.rank, some package⟩] where
  handlers := rfl
  ids := rfl
  nextId := rfl
  deliveries := rfl
  scope handler hmem := by rw [List.mem_singleton.mp hmem]
  threshold handler hmem := by
    rw [List.mem_singleton.mp hmem]
    exact ⟨l, hlevel, rfl⟩

/-- Every new id is given for the first time. -/
theorem nextId_le (h : Extended d d' level added) {handler : Handler} (hmem : handler ∈ added) :
    d.nextId ≤ handler.id ∧ handler.id < d'.nextId := by
  have hid : handler.id ∈ added.map Handler.id := List.mem_map_of_mem hmem
  rw [h.ids, List.mem_range'_1] at hid
  rw [h.nextId]
  exact hid

theorem nodup (h : Extended d d' level added) : (added.map Handler.id).Nodup := by
  rw [h.ids]
  exact List.nodup_range'

theorem numbered (h : Extended d d' level added) (hnumbered : d.Numbered) : d'.Numbered := by
  constructor
  · rw [h.handlers, List.map_append, List.nodup_append]
    refine ⟨hnumbered.distinct, h.nodup, fun id hid id' hid' heq => ?_⟩
    obtain ⟨old, hold, rfl⟩ := List.mem_map.mp hid
    obtain ⟨new, hnew, rfl⟩ := List.mem_map.mp hid'
    have hlt := Nat.lt_of_lt_of_le (hnumbered.below old hold) (h.nextId_le hnew).1
    exact absurd heq (Nat.ne_of_lt hlt)
  · intro handler hhandler
    rw [h.handlers] at hhandler
    rcases List.mem_append.mp hhandler with hold | hnew
    · rw [h.nextId]
      exact Nat.lt_add_right _ (hnumbered.below handler hold)
    · exact (h.nextId_le hnew).2

end Extended

theorem exists_extended_of_addConsole {config : Config} {target : Target} {ids : List Nat}
    (hadd : d.addConsole config target = (d', .ok ids)) :
    d'.enabled = d.enabled ∧
      ∃ added, Extended d d' config.level added ∧ added.map Handler.id = ids := by
  rw [addConsole] at hadd
  split at hadd
  · split at hadd
    · rename_i l hlevel
      cases hadd
      exact ⟨rfl, _, .add d d.tree target hlevel, rfl⟩
    · cases hadd
  · cases hadd
    exact ⟨rfl, [], .refl _ rfl rfl rfl, rfl⟩

theorem exists_extended_of_addFile {config : Config} {now : Calendar.Moment} {ids : List Nat}
    (hadd : d.addFile config now = (d', .ok ids)) :
    d'.enabled = d.enabled ∧
      ∃ added, Extended d d' config.level added ∧ added.map Handler.id = ids := by
  rw [addFile] at hadd
  split at hadd
  · cases hadd
    exact ⟨rfl, [], .refl _ rfl rfl rfl, rfl⟩
  · repeat' split at hadd
    all_goals cases hadd
    exact ⟨rfl, _, .add d _ _ ‹_›, rfl⟩

/-- Setting up logging lets the package speak, adds handlers and gives their ids. -/
theorem exists_extended_of_setUp {config : Config} {console : Target} {now : Calendar.Moment}
    {ids : List Nat} (hset : d.setUp config console now = (d', .ok ids)) :
    d'.enabled = true ∧
      ∃ added, Extended d d' config.level added ∧ added.map Handler.id = ids := by
  rw [setUp] at hset
  split at hset
  · cases hset
  · rename_i middle consoleIds hconsole
    split at hset
    · cases hset
    · rename_i fileIds hfile
      cases hset
      obtain ⟨hspeaks, added, hadded, rfl⟩ := exists_extended_of_addConsole hconsole
      obtain ⟨hspeaks', added', hadded', rfl⟩ := exists_extended_of_addFile hfile
      have hstart : Extended d { d with enabled := true } config.level [] :=
        .refl _ rfl rfl rfl
      exact ⟨hspeaks'.trans hspeaks, added ++ added', (hstart.trans hadded).trans hadded',
        List.map_append⟩

/-! ### Removing them -/

@[simp]
theorem without_nil (d : Desk τ) : d.without [] = d := by
  simp [without]

theorem without_cons (d : Desk τ) (id : Nat) (ids : List Nat) :
    d.without (id :: ids) = (d.without [id]).without ids := by
  simp [without, List.filter_filter, Bool.and_comm]

theorem holds_without (d : Desk τ) (ids : List Nat) (id : Nat) :
    (d.without ids).holds id = (d.holds id && !ids.contains id) := by
  have hone (h : Handler) :
      (!ids.contains h.id && h.id == id) = (h.id == id && !ids.contains id) := by
    by_cases heq : h.id = id
    · rw [heq, Bool.and_comm]
    · rw [beq_eq_false_iff_ne.mpr heq, Bool.and_false, Bool.false_and]
  rw [holds, holds, without, List.any_filter, List.and_any_distrib_right]
  simp only [hone]

theorem Numbered.without (h : d.Numbered) (ids : List Nat) : (d.without ids).Numbered :=
  ⟨h.distinct.sublist (List.filter_sublist.map Handler.id),
    fun handler hhandler => h.below handler (List.mem_filter.mp hhandler).1⟩

theorem remove_of_holds {id : Nat} (h : d.holds id = true) : d.remove id = .ok (d.without [id]) := by
  have hsame (h : Handler) : (h.id != id) = !([id].contains h.id) := by
    rw [List.contains_cons, List.contains_nil, Bool.or_false, bne]
  rw [holds] at h
  simp only [remove, h, if_true, without, hsame]

theorem remove_of_not_holds {id : Nat} (h : d.holds id = false) :
    d.remove id = .error .noSuchHandler := by
  rw [holds] at h
  simp [remove, h]

/-- Handlers that are installed are removed, and then it is the turn of the others. -/
theorem tearDown_append {present : List Nat} (hdistinct : present.Nodup)
    (hpresent : ∀ id ∈ present, d.holds id = true) (rest : List Nat) :
    d.tearDown (present ++ rest) = (d.without present).tearDown rest := by
  induction present generalizing d with
  | nil => rw [List.nil_append, without_nil]
  | cons id present ih =>
      obtain ⟨hnew, hdistinct⟩ := List.nodup_cons.mp hdistinct
      rw [List.cons_append, tearDown, remove_of_holds (hpresent id List.mem_cons_self)]
      simp only
      rw [ih hdistinct, ← without_cons]
      intro other hother
      have hne : other ≠ id := fun h => hnew (h ▸ hother)
      simp [holds_without, hpresent other (List.mem_cons_of_mem _ hother), hne]

/-- When all of some handlers are installed they are removed, and the package is silenced. -/
theorem tearDown_of_holds {ids : List Nat} (hdistinct : ids.Nodup)
    (hpresent : ∀ id ∈ ids, d.holds id = true) :
    d.tearDown ids = ({ d.without ids with enabled := false }, .ok ()) := by
  have h := tearDown_append hdistinct hpresent []
  rwa [List.append_nil] at h

/-- A handler that is missing is where it ends: those behind it stay, and so does the package. -/
theorem tearDown_of_missing {present rest : List Nat} {id : Nat}
    (hdistinct : (present ++ id :: rest).Nodup) (hpresent : ∀ id ∈ present, d.holds id = true)
    (hmissing : d.holds id = false) :
    d.tearDown (present ++ id :: rest) = (d.without present, .error .noSuchHandler) := by
  rw [tearDown_append (List.nodup_append.mp hdistinct).1 hpresent, tearDown,
    remove_of_not_holds (by rw [holds_without, hmissing, Bool.false_and])]

/-- If taking handlers down succeeds, that is what it comes to. -/
theorem eq_of_tearDown_eq_ok {ids : List Nat} (htear : d.tearDown ids = (d', .ok ())) :
    d' = { d.without ids with enabled := false } := by
  induction ids generalizing d with
  | nil =>
      cases htear
      rw [without_nil]
  | cons id ids ih =>
      rw [tearDown] at htear
      cases hholds : d.holds id with
      | true =>
          rw [remove_of_holds hholds] at htear
          rw [ih htear, ← without_cons]
      | false =>
          rw [remove_of_not_holds hholds] at htear
          cases htear

/-- Some handlers are all installed, or there is a first one that is not. -/
theorem all_hold_or_exists_missing (d : Desk τ) (ids : List Nat) :
    (∀ id ∈ ids, d.holds id = true) ∨
      ∃ present id rest, ids = present ++ id :: rest ∧ (∀ id ∈ present, d.holds id = true) ∧
        d.holds id = false := by
  induction ids with
  | nil => exact .inl nofun
  | cons first ids ih =>
      cases hfirst : d.holds first with
      | false => exact .inr ⟨[], first, ids, rfl, nofun, hfirst⟩
      | true =>
          rcases ih with hall | ⟨present, id, rest, rfl, hpresent, hmissing⟩
          · exact .inl (List.forall_mem_cons.mpr ⟨hfirst, hall⟩)
          · exact .inr ⟨first :: present, id, rest, rfl,
              List.forall_mem_cons.mpr ⟨hfirst, hpresent⟩, hmissing⟩

/-! ### What is cleared away -/

/-- What comes of taking some handlers down. -/
structure TakenDown (d : Desk τ) (ids : List Nat) : Prop where
  all : (∀ id ∈ ids, d.holds id = true) →
    d.tearDown ids = ({ d.without ids with enabled := false }, .ok ())
  /-- The first handler that is missing keeps those behind it and the package as they were. -/
  first : ∀ {present rest : List Nat} {id : Nat}, ids = present ++ id :: rest →
    (∀ id ∈ present, d.holds id = true) → d.holds id = false →
      d.tearDown ids = (d.without present, .error .noSuchHandler)
  /-- So everything is cleared away if nothing is missing, or if all that comes after what is
  missing is missing too and the package is silent already. -/
  cleared_iff : (d.tearDown ids).1.Cleared ids ↔
    ∃ present missing : List Nat, ids = present ++ missing ∧
      (∀ id ∈ present, d.holds id = true) ∧ (∀ id ∈ missing, d.holds id = false) ∧
      (missing = [] ∨ d.enabled = false)

theorem cleared_of_holds {ids : List Nat} (hdistinct : ids.Nodup)
    (hpresent : ∀ id ∈ ids, d.holds id = true) : (d.tearDown ids).1.Cleared ids := by
  rw [tearDown_of_holds hdistinct hpresent]
  refine ⟨fun id hid => ?_, rfl⟩
  have hgone := holds_without d ids id
  rw [List.contains_iff_mem.mpr hid, Bool.not_true, Bool.and_false] at hgone
  exact hgone

/-- Behind the first handler that is missing nothing is removed or silenced. -/
theorem cleared_iff_of_missing {present rest : List Nat} {id : Nat}
    (hdistinct : (present ++ id :: rest).Nodup) (hpresent : ∀ id ∈ present, d.holds id = true)
    (hmissing : d.holds id = false) :
    (d.tearDown (present ++ id :: rest)).1.Cleared (present ++ id :: rest) ↔
      (∀ id ∈ rest, d.holds id = false) ∧ d.enabled = false := by
  obtain ⟨-, hrest, hapart⟩ := List.nodup_append.mp hdistinct
  rw [tearDown_of_missing hdistinct hpresent hmissing]
  have hbehind : ∀ other ∈ id :: rest, (d.without present).holds other = d.holds other := by
    intro other hother
    have hnew : other ∉ present := fun hmem => hapart other hmem other hother rfl
    simp [holds_without, hnew]
  refine and_congr_left fun _ => ⟨fun h other hother => ?_, fun h other hother => ?_⟩
  · have hbehind' := List.mem_cons_of_mem id hother
    rw [← hbehind other hbehind']
    exact h other (List.mem_append_right _ hbehind')
  · rcases List.mem_append.mp hother with hbefore | hafter
    · simp [holds_without, hbefore]
    · rw [hbehind other hafter]
      rcases List.mem_cons.mp hafter with rfl | hafter
      · exact hmissing
      · exact h other hafter

/-- Whatever is installed when the ids of a setup are handed back: if all of its handlers are there,
they are removed and the package is silenced, and if one is missing, it ends there. -/
theorem takenDown_of_setUp {d₀ : Desk τ} {config : Config} {console : Target}
    {now : Calendar.Moment} {ids : List Nat} (hset : (d₀.setUp config console now).2 = .ok ids)
    (d : Desk τ) : d.TakenDown ids := by
  have hdistinct : ids.Nodup := by
    obtain ⟨-, added, hadded, rfl⟩ := exists_extended_of_setUp (Prod.ext rfl hset)
    exact hadded.nodup
  refine ⟨tearDown_of_holds hdistinct, ?_, ?_⟩
  · rintro present rest id rfl hpresent hmissing
    exact tearDown_of_missing hdistinct hpresent hmissing
  · constructor
    · intro hcleared
      rcases all_hold_or_exists_missing d ids with
        hall | ⟨present, id, rest, rfl, hpresent, hmissing⟩
      · exact ⟨ids, [], (List.append_nil ids).symm, hall, nofun, .inl rfl⟩
      · obtain ⟨hrest, hsilent⟩ :=
          (cleared_iff_of_missing hdistinct hpresent hmissing).mp hcleared
        exact ⟨present, id :: rest, rfl, hpresent, List.forall_mem_cons.mpr ⟨hmissing, hrest⟩,
          .inr hsilent⟩
    · rintro ⟨present, missing, rfl, hpresent, hmissing, hsilent⟩
      cases missing with
      | nil =>
          rw [List.append_nil] at hdistinct ⊢
          exact cleared_of_holds hdistinct hpresent
      | cons id rest =>
          obtain ⟨hmissing, hrest⟩ := List.forall_mem_cons.mp hmissing
          exact (cleared_iff_of_missing hdistinct hpresent hmissing).mpr
            ⟨hrest, hsilent.resolve_left (List.cons_ne_nil _ _)⟩

/-- A desk where logging was set up with a console and a file. -/
def consoleAndFile : Desk Int :=
  (empty.setUp (.ofFields [("file", .text "watch.log")]) .sink default).1

/-- Logging was set up, taken down and set up again.  When it is taken down by the first id once
more, the second handler and the package go on.  And if somebody else removed the console of a setup
with a console and a file, the file goes on as well. -/
theorem takenDown_twice :
    (∃ d d' : Desk Int, empty.setUp (.ofFields []) .sink default = (d, .ok [0]) ∧
      (d.tearDown [0]).1.setUp (.ofFields []) .sink default = (d', .ok [1]) ∧
      d'.tearDown [0] = (d', .error .noSuchHandler) ∧ d'.holds 1 = true ∧ d'.enabled = true ∧
      ¬ (d'.tearDown [0]).1.Cleared [0] ∧ d'.TakenDown [0]) ∧
    ∃ d' : Desk Int,
      empty.setUp (.ofFields [("file", .text "watch.log")]) .sink default =
        (consoleAndFile, .ok [0, 1]) ∧
      consoleAndFile.remove 0 = .ok d' ∧ d'.tearDown [0, 1] = (d', .error .noSuchHandler) ∧
      d'.holds 1 = true ∧ d'.enabled = true ∧ ¬ (d'.tearDown [0, 1]).1.Cleared [0, 1] ∧
      d'.TakenDown [0, 1] := by
  obtain ⟨d, d', hset, hagain, hends, hstays, hspeaks⟩ : ∃ d d' : Desk Int,
      empty.setUp (.ofFields []) .sink default = (d, .ok [0]) ∧
      (d.tearDown [0]).1.setUp (.ofFields []) .sink default = (d', .ok [1]) ∧
      d'.tearDown [0] = (d', .error .noSuchHandler) ∧ d'.holds 1 = true ∧ d'.enabled = true :=
    ⟨_, _, rfl, rfl, rfl, rfl, rfl⟩
  have hids : ((empty : Desk Int).setUp (.ofFields [("file", .text "watch.log")]) .sink
      default).2 = .ok [0, 1] := by decide +kernel
  have hconsole : consoleAndFile.holds 0 = true := by decide +kernel
  have hmissing : (consoleAndFile.without [0]).holds 0 = false := by decide +kernel
  have hfile : (consoleAndFile.without [0]).holds 1 = true := by decide +kernel
  have hends' : (consoleAndFile.without [0]).tearDown [0, 1] =
      (consoleAndFile.without [0], .error .noSuchHandler) := by
    rw [tearDown, remove_of_not_holds hmissing]
  refine ⟨⟨d, d', hset, hagain, hends, hstays, hspeaks, fun hcleared => ?_,
      takenDown_of_setUp (congrArg Prod.snd hset) d'⟩,
    consoleAndFile.without [0], Prod.ext rfl hids, remove_of_holds hconsole, hends', hfile,
    by decide +kernel, fun hcleared => ?_, takenDown_of_setUp hids _⟩
  · rw [hends] at hcleared
    exact Bool.noConfusion (hspeaks.symm.trans hcleared.2)
  · rw [hends'] at hcleared
    exact Bool.noConfusion (hfile.symm.trans (hcleared.1 1 (by simp)))

end Vigil.Log.Desk
