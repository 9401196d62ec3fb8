import Vigil.Proofs.Settings.Escape
import Vigil.Proofs.Toml.Tidy

/-!
# What settings come to

For each key of a section one value counts: the one of the project, or else the one that all
projects share.  If the sections are tables, with no further tables in the places of values, then
nothing but the values that count decides about the settings: whether there are any, what they are,
and which fault is told otherwise.
-/

namespace Vigil.Settings

/-! ### The values that count -/

/-- The value that counts for a key of a section. -/
def counting (shared project : Fields) (section_ key : String) : Option Value :=
  (project.at? [section_, key]).or (shared.at? [section_, key])

/-- The keys that are known in each section. -/
def knownKeys : List (String × List String) :=
  [("eks", Eks.Connection.keys), ("wait", ["initial_wait", "poll_interval", "timeout"]),
    ("log", Log.Config.keys)]

/-- The sections that are there are tables, and the known keys hold no tables. -/
def Plain (fields : Fields) : Prop :=
  ∀ row ∈ knownKeys, (fields.at? [row.1]).all Value.isTable = true ∧
    ∀ key ∈ row.2, (fields.at? [row.1, key]).all (fun v => !v.isTable) = true

instance (fields : Fields) : Decidable (Plain fields) :=
  inferInstanceAs (Decidable (∀ row ∈ knownKeys, _ ∧ ∀ key ∈ row.2, _ = true))

/-- The fields of a section show the values that count: they have the keys with a value, and at the
known ones these values themselves. -/
structure Shows (values : String → Option Value) (known : List String) (inner : Fields) : Prop where
  nodup : (Fields.keys inner).Nodup
  mem_keys_iff : ∀ key, key ∈ Fields.keys inner ↔ (values key).isSome = true
  get? : ∀ key ∈ known, Fields.get? inner key = values key

/-! ### The sections of both files -/

theorem tidy_of_read {source : Source} {place : Place} {fields : Fields}
    (h : source.read place = .ok fields) : fields.Tidy := by
  cases source with
  | missing =>
      obtain rfl := Except.ok.inj h
      exact .table List.nodup_nil (List.forall_mem_nil _)
  | file content =>
      rw [Source.read] at h
      rcases hread : Toml.ofBytes content with (_ | _ | _) | read <;> rw [hread] at h
      case ok =>
        obtain rfl := Except.ok.inj h
        exact Toml.tidy_of_ofBytes hread
      all_goals cases h

section Sections

variable {shared project : Fields} {name : String} {lower upper : Fields}

theorem exists_sectionOf {fields : Fields} (h : (fields.at? [name]).all Value.isTable = true) :
    ∃ inner, sectionOf fields name = .table inner := by
  rw [Fields.at?, Value.at?_table_cons] at h
  rw [sectionOf]
  cases hget : Fields.get? fields name with
  | none => exact ⟨[], rfl⟩
  | some v =>
      rw [hget] at h
      exact Value.isTable_iff.mp (by simpa using h)

theorem nodup_keys_of_sectionOf {fields inner : Fields} (hfields : fields.Tidy)
    (h : sectionOf fields name = .table inner) : (Fields.keys inner).Nodup := by
  rw [sectionOf] at h
  cases hget : Fields.get? fields name with
  | none =>
      rw [hget] at h
      obtain rfl := Value.table.inj h
      exact List.nodup_nil
  | some v =>
      rw [hget] at h
      obtain rfl : v = .table inner := h
      exact Fields.Tidy.nodup (hfields.get? hget)

theorem sectionOf_combine (hname : name ∈ sections) :
    sectionOf (combine shared project) name = sectionOf (Fields.merge shared project) name := by
  simp only [sections, List.mem_cons, List.not_mem_nil, or_false] at hname
  rcases hname with rfl | rfl | rfl <;>
    simp [sectionOf, combine, sections, Fields.get?_putIfMissing]

/-- Sections that are tables are laid one over the other. -/
theorem sectionOf_merge (hproject : project.Tidy) (hlower : sectionOf shared name = .table lower)
    (hupper : sectionOf project name = .table upper) :
    sectionOf (Fields.merge shared project) name = .table (Fields.merge lower upper) := by
  have hnodup := nodup_keys_of_sectionOf hproject hupper
  rw [sectionOf] at hlower hupper
  rw [sectionOf, Fields.get?_merge shared hproject.nodup]
  cases hv : Fields.get? project name with
  | none =>
      rw [hv] at hupper
      obtain rfl := Value.table.inj hupper
      rw [Fields.merge_nil]
      exact hlower
  | some v =>
      rw [hv] at hupper
      obtain rfl : v = .table upper := hupper
      dsimp only [Option.getD_some]
      cases hw : Fields.get? shared name with
      | none =>
          rw [hw] at hlower
          obtain rfl := Value.table.inj hlower
          rw [Fields.nil_merge hnodup]
          rfl
      | some w =>
          rw [hw] at hlower
          obtain rfl : w = .table lower := hlower
          exact Value.overAny_table_table lower upper

/-- The section of both files shows the values that count. -/
theorem exists_shows (hshared : shared.Tidy) (hproject : project.Tidy) (hplain : Plain shared)
    (hplain' : Plain project) {known : List String} (hname : name ∈ sections)
    (hknown : (name, known) ∈ knownKeys) :
    ∃ inner, sectionOf (combine shared project) name = .table inner ∧
      Shows (counting shared project name) known inner := by
  obtain ⟨lower, hlower⟩ := exists_sectionOf (hplain _ hknown).1
  obtain ⟨upper, hupper⟩ := exists_sectionOf (hplain' _ hknown).1
  have hupperNodup := nodup_keys_of_sectionOf hproject hupper
  have hvalue (key : String) : counting shared project name key =
      (Fields.get? upper key).or (Fields.get? lower key) := by
    rw [counting, at?_section_of_table hlower, at?_section_of_table hupper]
  refine ⟨Fields.merge lower upper, ?_, ?_, fun key => ?_, fun key hkey => ?_⟩
  · rw [sectionOf_combine hname, sectionOf_merge hproject hlower hupper]
  · exact Fields.nodup_keys_merge (nodup_keys_of_sectionOf hshared hlower) hupperNodup
  · rw [Fields.mem_keys_merge hupperNodup, hvalue, Option.isSome_or, Bool.or_eq_true,
      Fields.mem_keys_iff, Fields.mem_keys_iff, Option.isSome_iff_exists, Option.isSome_iff_exists,
      or_comm]
  · have hplainKey := (hplain' _ hknown).2 key hkey
    rw [at?_section_of_table hupper] at hplainKey
    rw [Fields.get?_merge lower hupperNodup, hvalue]
    cases hget : Fields.get? upper key with
    | none => simp
    | some v =>
        rw [hget] at hplainKey
        simp [Value.overAny_of_not_table _ (by simpa using hplainKey : v.isTable = false)]

end Sections

/-! ### Settings and faults, from the values that count -/

/-- Settings that the values for the keys of the sections lead to. -/
structure Resolved (values : String → String → Option Value) (s : Settings) : Prop where
  connectionKeys : ∀ key, (values "eks" key).isSome = true → key ∈ Eks.Connection.keys
  connection : s.connection =
    { region := (values "eks" "region").getD (.text "us-east-1")
      profile := (values "eks" "profile").getD .null
      endpoint := (values "eks" "endpoint_url").getD .null }
  initialWait : ∃ given, GivenSeconds (values "wait" "initial_wait") given ∧
    s.initialWait = given.getD Watch.defaultInitialWait
  pollInterval : ∃ given, GivenSeconds (values "wait" "poll_interval") given ∧
    s.pollInterval = given.getD Watch.defaultPollInterval
  timeout : GivenSeconds (values "wait" "timeout") s.timeout
  logKeys : ∀ key, (values "log" key).isSome = true → key ∈ Log.Config.keys
  log : ∃ level retention rotation, GivenLevel (values "log" "level") level ∧
    GivenRetention (values "log" "retention") retention ∧
    GivenRotation (values "log" "rotation") rotation ∧
    s.log =
      { level := .text level.name
        console := ((values "log" "console").map Value.truthy).getD true
        file := (values "log" "file").getD .null
        rotation := .text rotation
        retention := .whole (retention : Nat) }

/-- What a check finds wrong with the values for the keys of the sections. -/
inductive Mistaken (values : String → String → Option Value) : Check → Fault → Prop
  | connection {unknown : List String} (hne : unknown ≠ [])
      (h : Unknown Eks.Connection.keys (fun key => (values "eks" key).isSome = true) unknown) :
      Mistaken values .connection (.unknownKeys "eks" unknown)
  | seconds {key : String} {f : Fault} (h : MistakenSeconds key (values "wait" key) f) :
      Mistaken values (.seconds key) f
  | logKeys {unknown : List String} (hne : unknown ≠ [])
      (h : Unknown Log.Config.keys (fun key => (values "log" key).isSome = true) unknown) :
      Mistaken values .logKeys (.unknownKeys "log" unknown)
  | level {f : Fault} (h : MistakenLevel (values "log" "level") f) : Mistaken values .level f
  | retention {f : Fault} (h : MistakenRetention (values "log" "retention") f) :
      Mistaken values .retention f
  | rotation {f : Fault} (h : MistakenRotation (values "log" "rotation") f) :
      Mistaken values .rotation f

/-- The fault is told with a message, or it is one of a wait that no double can hold or of a value
that cannot be written. -/
def Fault.Told (f : Fault) : Prop :=
  f.Reported ∨ f.toFailure = .error .tooLarge ∨ f.toFailure = .error .unwritable

section Told

variable {v : Option Value} {f : Fault}

theorem Fault.told_of_quotes (h : f.Quotes) : f.Told :=
  (Fault.reported_or_unwritable h).imp_right .inr

theorem MistakenSeconds.told {key : String} (h : MistakenSeconds key v f) : f.Told := by
  cases h with
  | tooLarge _ => exact .inr (.inl rfl)
  | _ => exact Fault.told_of_quotes trivial

theorem MistakenLevel.told (h : MistakenLevel v f) : f.Told := by
  cases h with
  | unknown _ _ => exact Fault.told_of_quotes trivial
  | unwritable _ => exact .inr (.inr rfl)

theorem MistakenRetention.told (h : MistakenRetention v f) : f.Told := by
  cases h with
  | kind _ => exact Fault.told_of_quotes trivial

theorem MistakenRotation.told (h : MistakenRotation v f) : f.Told := by
  cases h with
  | unwritable _ => exact .inr (.inr rfl)

theorem Mistaken.told {values : String → String → Option Value} {check : Check}
    (h : Mistaken values check f) : f.Told := by
  cases h with
  | connection _ _ => exact .inl ⟨_, rfl⟩
  | seconds h => exact h.told
  | logKeys _ _ => exact .inl ⟨_, rfl⟩
  | level h => exact h.told
  | retention h => exact h.told
  | rotation h => exact h.told

end Told

section Parts

variable {values : String → Option Value} {inner : Fields}

theorem Shows.requireKnown_eq_ok_iff {known : List String} (h : Shows values known inner)
    {section_ : String} :
    requireKnown section_ known (Fields.keys inner) = .ok () ↔
      ∀ key, (values key).isSome = true → key ∈ known := by
  rw [Settings.requireKnown_eq_ok_iff]
  exact forall_congr' fun key => by rw [h.mem_keys_iff]

theorem Shows.requireKnown_eq_error_iff {known : List String} (h : Shows values known inner)
    {section_ : String} {f : Fault} :
    requireKnown section_ known (Fields.keys inner) = .error f ↔
      ∃ unknown ≠ [], Unknown known (fun key => (values key).isSome = true) unknown ∧
        f = .unknownKeys section_ unknown := by
  have hgiven : (· ∈ Fields.keys inner) = fun key => (values key).isSome = true :=
    funext fun key => propext (h.mem_keys_iff key)
  rw [Settings.requireKnown_eq_error_iff, hgiven]

theorem connectionOf_table (h : (Fields.keys inner).Nodup) :
    connectionOf (.table inner) = do
      requireKnown "eks" Eks.Connection.keys (Fields.keys inner)
      return .ofFields inner := by
  rw [connectionOf, fieldsOf_table h]
  rfl

theorem connectionOf_eq_ok_iff (h : Shows values Eks.Connection.keys inner)
    {connection : Eks.Connection} :
    connectionOf (.table inner) = .ok connection ↔
      (∀ key, (values key).isSome = true → key ∈ Eks.Connection.keys) ∧
        connection =
          { region := (values "region").getD (.text "us-east-1")
            profile := (values "profile").getD .null
            endpoint := (values "endpoint_url").getD .null } := by
  rw [connectionOf_table h.nodup, Eks.Connection.ofFields, h.get? "region" (by decide),
    h.get? "profile" (by decide), h.get? "endpoint_url" (by decide)]
  constructor
  · intro hok
    obtain ⟨_, hknown, hconnection⟩ := bind_eq_ok_iff.mp hok
    exact ⟨h.requireKnown_eq_ok_iff.mp hknown, (Except.ok.inj hconnection).symm⟩
  · rintro ⟨hknown, rfl⟩
    exact bind_eq_ok_iff.mpr ⟨(), h.requireKnown_eq_ok_iff.mpr hknown, rfl⟩

theorem connectionOf_eq_error_iff (h : Shows values Eks.Connection.keys inner) {f : Fault} :
    connectionOf (.table inner) = .error f ↔
      ∃ unknown ≠ [],
        Unknown Eks.Connection.keys (fun key => (values key).isSome = true) unknown ∧
          f = .unknownKeys "eks" unknown := by
  rw [connectionOf_table h.nodup, ← h.requireKnown_eq_error_iff]
  simp [bind_eq_error_iff, pure, Except.pure]

theorem logOf_eq_ok_iff (h : Shows values Log.Config.keys inner) {log : Log.Config} :
    logOf (.table inner) = .ok log ↔
      (∀ key, (values key).isSome = true → key ∈ Log.Config.keys) ∧
        ∃ level retention rotation, GivenLevel (values "level") level ∧
          GivenRetention (values "retention") retention ∧
          GivenRotation (values "rotation") rotation ∧
          log =
            { level := .text level.name
              console := ((values "console").map Value.truthy).getD true
              file := (values "file").getD .null
              rotation := .text rotation
              retention := .whole (retention : Nat) } := by
  simp only [logOf, namesOf_table, bind_eq_ok_iff, tableOf_eq_ok_iff, levelOf_eq_ok_iff,
    retentionOf_eq_ok_iff, rotationOf_eq_ok_iff, Except.ok.injEq, Value.table.injEq,
    exists_eq_left', exists_const, h.requireKnown_eq_ok_iff, pure, Except.pure,
    h.get? "level" (by decide), h.get? "console" (by decide), h.get? "file" (by decide),
    h.get? "rotation" (by decide), h.get? "retention" (by decide), exists_and_left,
    eq_comm (a := log)]

theorem logKeys_eq_error_iff (h : Shows values Log.Config.keys inner) {f : Fault} :
    (namesOf (.table inner) >>= requireKnown "log" Log.Config.keys) = .error f ↔
      ∃ unknown ≠ [], Unknown Log.Config.keys (fun key => (values key).isSome = true) unknown ∧
        f = .unknownKeys "log" unknown := by
  rw [namesOf_table, ← h.requireKnown_eq_error_iff]
  rfl

end Parts

/-! ### The whole of it -/

section Whole

variable {values : String → String → Option Value} {fields : Fields}

/-- The sections of a table show values. -/
structure ShowsAll (values : String → String → Option Value) (fields : Fields) : Prop where
  eks : ∃ inner, sectionOf fields "eks" = .table inner ∧
    Shows (values "eks") Eks.Connection.keys inner
  wait : ∃ inner, sectionOf fields "wait" = .table inner ∧
    Shows (values "wait") ["initial_wait", "poll_interval", "timeout"] inner
  log : ∃ inner, sectionOf fields "log" = .table inner ∧ Shows (values "log") Log.Config.keys inner

/-- A check finds what is wrong with the values that are shown. -/
theorem fault?_eq_some_iff (h : ShowsAll values fields) {check : Check}
    (hcheck : check ∈ Check.inOrder) {f : Fault} :
    check.fault? fields = some f ↔ Mistaken values check f := by
  obtain ⟨eks, heks, heksShows⟩ := h.eks
  obtain ⟨wait, hwait, hwaitShows⟩ := h.wait
  obtain ⟨log, hlog, hlogShows⟩ := h.log
  cases check with
  | connection =>
      rw [Check.fault?, heks, faultOf?_eq_some_iff, connectionOf_eq_error_iff heksShows]
      constructor
      · rintro ⟨unknown, hne, hunknown, rfl⟩
        exact .connection hne hunknown
      · intro h
        cases h with
        | connection hne hunknown => exact ⟨_, hne, hunknown, rfl⟩
  | waitTable =>
      rw [Check.fault?, hwait]
      refine iff_of_false (by simp [tableOf]) fun h => ?_
      cases h
  | seconds key =>
      have hkey : key ∈ ["initial_wait", "poll_interval", "timeout"] := by
        simpa [Check.inOrder] using hcheck
      rw [Check.fault?, hwait, Check.inTable?, faultOf?_eq_some_iff, seconds?_eq_error_iff,
        hwaitShows.get? key hkey]
      refine ⟨.seconds, fun h => ?_⟩
      cases h with
      | seconds h => exact h
  | logKeys =>
      rw [Check.fault?, hlog, faultOf?_eq_some_iff, logKeys_eq_error_iff hlogShows]
      constructor
      · rintro ⟨unknown, hne, hunknown, rfl⟩
        exact .logKeys hne hunknown
      · intro h
        cases h with
        | logKeys hne hunknown => exact ⟨_, hne, hunknown, rfl⟩
  | logTable =>
      rw [Check.fault?, hlog]
      refine iff_of_false (by simp [tableOf]) fun h => ?_
      cases h
  | level =>
      rw [Check.fault?, hlog, Check.inTable?, faultOf?_eq_some_iff, levelOf_eq_error_iff,
        hlogShows.get? "level" (by decide)]
      refine ⟨.level, fun h => ?_⟩
      cases h with
      | level h => exact h
  | retention =>
      rw [Check.fault?, hlog, Check.inTable?, faultOf?_eq_some_iff, retentionOf_eq_error_iff,
        hlogShows.get? "retention" (by decide)]
      refine ⟨.retention, fun h => ?_⟩
      cases h with
      | retention h => exact h
  | rotation =>
      rw [Check.fault?, hlog, Check.inTable?, faultOf?_eq_some_iff, rotationOf_eq_error_iff,
        hlogShows.get? "rotation" (by decide)]
      refine ⟨.rotation, fun h => ?_⟩
      cases h with
      | rotation h => exact h

/-- The settings are those that the values lead to. -/
theorem ofFields_eq_ok_iff_resolved (h : ShowsAll values fields) {s : Settings} :
    ofFields fields = .ok s ↔ Resolved values s := by
  obtain ⟨eks, heks, heksShows⟩ := h.eks
  obtain ⟨wait, hwait, hwaitShows⟩ := h.wait
  obtain ⟨log, hlog, hlogShows⟩ := h.log
  rw [ofFields_eq_ok_iff, heks, hwait, hlog, connectionOf_eq_ok_iff heksShows,
    logOf_eq_ok_iff hlogShows]
  simp only [tableOf_eq_ok_iff, Value.table.injEq, exists_eq_left', seconds?_eq_ok_iff,
    hwaitShows.get? "initial_wait" (by decide), hwaitShows.get? "poll_interval" (by decide),
    hwaitShows.get? "timeout" (by decide)]
  constructor
  · rintro ⟨⟨hkeys, hconnection⟩, ⟨hinitial, hpoll, htimeout⟩, hlogKeys, hlog⟩
    exact ⟨hkeys, hconnection, hinitial, hpoll, htimeout, hlogKeys, hlog⟩
  · rintro ⟨hkeys, hconnection, hinitial, hpoll, htimeout, hlogKeys, hlog⟩
    exact ⟨⟨hkeys, hconnection⟩, ⟨hinitial, hpoll, htimeout⟩, hlogKeys, hlog⟩

end Whole

/-- The sections of both files show the values that count. -/
theorem showsAll_combine {shared project : Fields} (hshared : shared.Tidy)
    (hproject : project.Tidy) (hplain : Plain shared) (hplain' : Plain project) :
    ShowsAll (counting shared project) (combine shared project) := by
  have hsection {name : String} {known : List String} (hname : name ∈ sections)
      (hknown : (name, known) ∈ knownKeys) :=
    exists_shows hshared hproject hplain hplain' hname hknown
  exact ⟨hsection (by decide) (by decide), hsection (by decide) (by decide),
    hsection (by decide) (by decide)⟩

/-- Two files whose sections are tables lead to the settings that the values that count say, and to
no others; and if one of these values is wrong, to the fault that the first failing check finds.
This is told with a message, unless the value is a wait that no double can hold or cannot be
written, which is so of values with a whole number of too many digits in them. -/
theorem resolved_by_counting {shared project : Source} {sharedFields projectFields : Fields}
    (hshared : shared.read .shared = .ok sharedFields)
    (hproject : project.read .project = .ok projectFields) (hplain : Plain sharedFields)
    (hplain' : Plain projectFields) :
    (∀ s, ofSources shared project = .ok s ↔ Resolved (counting sharedFields projectFields) s) ∧
      ∀ f, ofSources shared project = .error f ↔
        ∃ before check after, Check.inOrder = before ++ check :: after ∧
          Mistaken (counting sharedFields projectFields) check f ∧
          (∀ c ∈ before, ∀ g, ¬ Mistaken (counting sharedFields projectFields) c g) ∧
          f.Told := by
  have hshows := showsAll_combine (tidy_of_read hshared) (tidy_of_read hproject) hplain hplain'
  have hfields : ofSources shared project = ofFields (combine sharedFields projectFields) := by
    rw [ofSources, load, hshared, hproject]
    rfl
  rw [hfields]
  refine ⟨fun s => ofFields_eq_ok_iff_resolved hshows, fun f => ?_⟩
  rw [← faultOf?_eq_some_iff, faultOf?_ofFields, List.findSome?_eq_some_iff]
  refine exists_congr fun before => exists_congr fun check => exists_congr fun after =>
    and_congr_right fun horder => ?_
  have hmem (c : Check) (hc : c ∈ before ++ check :: after) : c ∈ Check.inOrder := horder ▸ hc
  rw [fault?_eq_some_iff hshows (hmem check (by simp))]
  refine and_congr_right fun hmistaken => ?_
  rw [and_iff_left hmistaken.told]
  refine forall₂_congr fun c hc => ?_
  rw [Option.eq_none_iff_forall_ne_some]
  exact forall_congr' fun g => not_congr (fault?_eq_some_iff hshows (hmem c (by simp [hc])))

/-- A shared file with a wrong interval is turned down, but not if the project has a right one. -/
theorem resolved_by_counting_of_repaired_interval :
    ∃ shared project : Source,
      (∃ f, ofSources shared .missing = .error f) ∧
      ∃ sharedFields projectFields s, shared.read .shared = .ok sharedFields ∧
        project.read .project = .ok projectFields ∧ Plain sharedFields ∧ Plain projectFields ∧
        ofSources shared project = .ok s ∧ Resolved (counting sharedFields projectFields) s := by
  let shared : Source := .file "[wait]\npoll_interval = -1\n[log]\nlevel = \"debug\"\n".toUTF8
  let project : Source := .file "[wait]\npoll_interval = 2\n[eks]\nregion = \"south\"\n".toUTF8
  have hwrong : (faultOf? (ofSources shared .missing)).isSome = true := by decide +kernel
  obtain ⟨f, hf⟩ := Option.isSome_iff_exists.mp hwrong
  obtain ⟨sharedFields, hshared⟩ : ∃ fields, shared.read .shared = .ok fields :=
    faultOf?_eq_none_iff.mp (Option.isNone_iff_eq_none.mp (by decide +kernel))
  obtain ⟨projectFields, hproject⟩ : ∃ fields, project.read .project = .ok fields :=
    faultOf?_eq_none_iff.mp (Option.isNone_iff_eq_none.mp (by decide +kernel))
  obtain ⟨s, hs⟩ : ∃ s, ofSources shared project = .ok s :=
    faultOf?_eq_none_iff.mp (Option.isNone_iff_eq_none.mp (by decide +kernel))
  have hplain : (shared.read .shared).toOption.any (fun fields => decide (Plain fields)) = true := by
    decide +kernel
  have hplain' : (project.read .project).toOption.any (fun fields => decide (Plain fields)) =
      true := by
    decide +kernel
  rw [hshared] at hplain
  rw [hproject] at hplain'
  have hplain := of_decide_eq_true hplain
  have hplain' := of_decide_eq_true hplain'
  obtain ⟨hresolved, -⟩ := resolved_by_counting hshared hproject hplain hplain'
  exact ⟨shared, project, ⟨f, faultOf?_eq_some_iff.mp hf⟩, sharedFields, projectFields, s, hshared,
    hproject, hplain, hplain', hs, (hresolved s).mp hs⟩

/-- A table whose only setting is a rotation of very many digits. -/
def overlongRotation : Fields := [("log", .table [("rotation", .whole (16 ^ 3600 : Nat))])]

/-- Whatever else is checked is right, but this rotation has no text. -/
theorem overlong_rotation_turned_down :
    Plain overlongRotation ∧
      (∀ check ∈ Check.inOrder, check ≠ .rotation →
        ∀ f, ¬ Mistaken (counting [] overlongRotation) check f) ∧
      ofFields (combine [] overlongRotation) = .error (.defect .unwritable) := by
  have hplain : Plain overlongRotation := by decide +kernel
  have htidy : Fields.Tidy overlongRotation :=
    .table (by decide) (List.forall_mem_singleton.mpr (.table (by decide)
      (List.forall_mem_singleton.mpr (.plain rfl))))
  have hshows : ShowsAll (counting [] overlongRotation) (combine [] overlongRotation) :=
    showsAll_combine (.table (by decide) (List.forall_mem_nil _)) htidy (by decide) hplain
  have hright : (Check.inOrder.filter (· ≠ .rotation)).all (fun check =>
      (check.fault? (combine [] overlongRotation)).isNone) = true := by decide +kernel
  have hwrong : (match ofFields (combine [] overlongRotation) with
      | .error (.defect .unwritable) => true
      | _ => false) = true := by decide +kernel
  refine ⟨hplain, fun check hcheck hne f hf => ?_, ?_⟩
  · have hnone := List.all_eq_true.mp hright check (by simp [hcheck, hne])
    rw [(fault?_eq_some_iff hshows hcheck).mpr hf] at hnone
    cases hnone
  · split at hwrong
    · assumption
    · cases hwrong

end Vigil.Settings
