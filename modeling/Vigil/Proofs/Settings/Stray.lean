import Vigil.Proofs.Settings.Escape
import Vigil.Proofs.Settings.Resolution

/-!
# Keys that no section defines

A mistyped key should not pass unnoticed, since a setting that is dropped in silence changes how
often a service is asked.  The sections of the connection and of the log turn down every key that
they do not define.  The section of waits does not look at its keys: what stands at any but its own
three makes no difference to the settings, nor to whether there are any.
-/

namespace Vigil.Settings

/-! ### Sections with keys of their own -/

/-- The sections that are there are tables. -/
def Sectioned (fields : Fields) : Prop :=
  ∀ name ∈ sections, (fields.at? [name]).all Value.isTable = true

/-- The keys that the section of waits defines. -/
def waitKeys : List String := ["initial_wait", "poll_interval", "timeout"]

/-- A key that stands in a section which does not define it. -/
def Stray (fields : Fields) (section_ key : String) : Prop :=
  (fields.at? [section_, key]).isSome = true ∧
    ∃ known, (section_, known) ∈ knownKeys ∧ key ∉ known

/-- The table with nothing in its section of waits but what the section defines. -/
def onlyDefinedWaits (fields : Fields) : Fields :=
  match sectionOf fields "wait" with
  | .table wait =>
      Fields.put fields "wait" (.table (wait.filter fun field => waitKeys.contains field.1))
  | _ => fields

/-! ### What the settings depend on -/

theorem seconds?_congr {fields more : Fields} {key : String}
    (h : Fields.get? fields key = Fields.get? more key) :
    seconds? fields key = seconds? more key := by
  rw [seconds?, seconds?, h]

/-- Of the section of waits nothing but the values of its own keys matters. -/
theorem ofFields_congr {fields more wait wait' : Fields}
    (heks : sectionOf fields "eks" = sectionOf more "eks")
    (hlog : sectionOf fields "log" = sectionOf more "log")
    (hwait : sectionOf fields "wait" = .table wait) (hwait' : sectionOf more "wait" = .table wait')
    (hvalues : ∀ key ∈ waitKeys, Fields.get? wait key = Fields.get? wait' key) :
    ofFields fields = ofFields more := by
  have hseconds (key : String) (hkey : key ∈ waitKeys) : seconds? wait key = seconds? wait' key :=
    seconds?_congr (hvalues key hkey)
  rw [ofFields, ofFields, heks, hlog, hwait, hwait']
  dsimp only [tableOf, bind, Except.bind]
  rw [hseconds "initial_wait" (by decide), hseconds "poll_interval" (by decide),
    hseconds "timeout" (by decide)]

theorem get?_filter_keys {fields : Fields} {names : List String} {key : String}
    (hkey : key ∈ names) :
    Fields.get? (fields.filter fun field => names.contains field.1) key =
      Fields.get? fields key := by
  induction fields with
  | nil => rfl
  | cons field fields ih =>
      obtain ⟨k, v⟩ := field
      rw [List.filter_cons]
      by_cases hk : k = key
      · subst hk
        simp [hkey, Fields.get?_cons]
      · rw [Fields.get?_cons, if_neg hk, ← ih]
        split_ifs
        · rw [Fields.get?_cons, if_neg hk]
        · rfl

theorem sectionOf_put (fields : Fields) (name other : String) (v : Value) :
    sectionOf (Fields.put fields name v) other =
      if other = name then v else sectionOf fields other := by
  rw [sectionOf, Fields.get?_put]
  split_ifs <;> rfl

theorem ofFields_onlyDefinedWaits {fields wait : Fields}
    (hwait : sectionOf fields "wait" = .table wait) :
    ofFields (onlyDefinedWaits fields) = ofFields fields := by
  have hput (name : String) := sectionOf_put fields "wait" name
    (.table (wait.filter fun field => waitKeys.contains field.1))
  rw [onlyDefinedWaits, hwait]
  exact ofFields_congr ((hput "eks").trans (if_neg (by decide)))
    ((hput "log").trans (if_neg (by decide))) ((hput "wait").trans (if_pos rfl)) hwait
    fun key hkey => get?_filter_keys hkey

/-! ### What is told -/

/-- A key that is not known is told. -/
theorem requireKnown_of_stray {section_ key : String} {known names : List String}
    (hkey : key ∈ names) (hstray : key ∉ known) :
    ∃ unknown, key ∈ unknown ∧
      requireKnown section_ known names = .error (.unknownKeys section_ unknown) := by
  have hunknown := unknown_unknownAmong known names
  have hmem : key ∈ unknownAmong known names := (hunknown.mem_iff key).mpr ⟨hkey, hstray⟩
  exact ⟨_, hmem, requireKnown_eq_error_iff.mpr ⟨_, List.ne_nil_of_mem hmem, hunknown, rfl⟩⟩

/-- A key that the section of the connection does not define is told before anything else. -/
theorem ofFields_of_stray_eks {fields eks : Fields} {key : String}
    (heks : sectionOf fields "eks" = .table eks) (hnodup : (Fields.keys eks).Nodup)
    (hkey : key ∈ Fields.keys eks) (hstray : key ∉ Eks.Connection.keys) :
    ∃ unknown, key ∈ unknown ∧ ofFields fields = .error (.unknownKeys "eks" unknown) := by
  obtain ⟨unknown, hmem, hrequire⟩ := requireKnown_of_stray hkey hstray
  refine ⟨unknown, hmem, ?_⟩
  rw [ofFields, heks, connectionOf_table hnodup, hrequire]
  rfl

/-- A key that the section of the log does not define is found by the check of its keys. -/
theorem exists_fault_of_stray_log {fields log : Fields} {key : String}
    (hlog : sectionOf fields "log" = .table log) (hkey : key ∈ Fields.keys log)
    (hstray : key ∉ Log.Config.keys) :
    ∃ unknown, Check.logKeys.fault? fields = some (.unknownKeys "log" unknown) := by
  obtain ⟨unknown, -, hrequire⟩ := requireKnown_of_stray hkey hstray
  refine ⟨unknown, ?_⟩
  rw [Check.fault?, hlog, namesOf_table, faultOf?_eq_some_iff]
  exact hrequire

/-- If the check of the keys of the log fails, then one of the checks up to it is the first that
fails. -/
theorem exists_first_fault {fields : Fields} {found : Fault}
    (hfound : Check.logKeys.fault? fields = some found) :
    ∃ check ∈ [Check.connection, .waitTable, .seconds "initial_wait", .seconds "poll_interval",
      .seconds "timeout", .logKeys], ∃ f, check.fault? fields = some f ∧
        ofFields fields = .error f := by
  have hsome : (List.findSome? (Check.fault? fields) [Check.connection, .waitTable,
      .seconds "initial_wait", .seconds "poll_interval", .seconds "timeout", .logKeys]).isSome =
      true :=
    List.findSome?_isSome_iff.mpr ⟨.logKeys, by simp, by simp [hfound]⟩
  obtain ⟨f, hf⟩ := Option.isSome_iff_exists.mp hsome
  obtain ⟨check, hcheck, hfault⟩ := List.exists_of_findSome?_eq_some hf
  refine ⟨check, hcheck, f, hfault, faultOf?_eq_some_iff.mp ?_⟩
  rw [faultOf?_ofFields]
  have hsplit : Check.inOrder = [Check.connection, .waitTable, .seconds "initial_wait",
      .seconds "poll_interval", .seconds "timeout", .logKeys] ++
        [.logTable, .level, .retention, .rotation] := rfl
  rw [hsplit, List.findSome?_append, hf, Option.some_or]

/-- Where all sections are tables, a key that the section of the log does not define is told, or
something is wrong with a wait before. -/
theorem exists_error_of_stray_log {fields log : Fields} {key : String}
    (htables : ∀ name ∈ sections, (sectionOf fields name).isTable = true)
    (hlog : sectionOf fields "log" = .table log) (hkey : key ∈ Fields.keys log)
    (hstray : key ∉ Log.Config.keys) :
    ∃ f, ofFields fields = .error f ∧
      (f.Reported ∨ ∃ key ∈ waitKeys, MistakenSeconds key (fields.at? ["wait", key]) f ∧
        Unforeseen fields (.seconds key)) := by
  obtain ⟨_, hfound⟩ := exists_fault_of_stray_log hlog hkey hstray
  obtain ⟨check, hcheck, f, hfault, hf⟩ := exists_first_fault hfound
  refine ⟨f, hf, or_iff_not_imp_left.mpr fun hsilent => ?_⟩
  have hunforeseen : Unforeseen fields check := unforeseen_iff.mp ⟨f, hfault, hsilent⟩
  have heks : StandsForFields (sectionOf fields "eks") := .inl (htables "eks" (by decide))
  have hnames : StandsForNames (sectionOf fields "log") := by
    rw [hlog]
    exact exists_namesOf_iff.mp ⟨_, namesOf_table log⟩
  obtain ⟨wait, hwait⟩ := Value.isTable_iff.mp (htables "wait" (by decide))
  have hseconds (key : String) (hkey : key ∈ waitKeys) (hcheck : check = .seconds key) :
      ∃ key ∈ waitKeys, MistakenSeconds key (fields.at? ["wait", key]) f ∧
        Unforeseen fields (.seconds key) := by
    subst hcheck
    rw [Check.fault?, hwait, Check.inTable?, faultOf?_eq_some_iff, seconds?_eq_error_iff,
      ← at?_section_of_table hwait] at hfault
    exact ⟨key, hkey, hfault, hunforeseen⟩
  simp only [List.mem_cons, List.not_mem_nil, or_false] at hcheck
  rcases hcheck with rfl | rfl | h | h | h | rfl
  · cases hunforeseen with
    | connection hne => exact absurd heks hne
  · cases hunforeseen with
    | waitTable hne => rw [hwait] at hne; cases hne
  · exact hseconds _ (by decide) h
  · exact hseconds _ (by decide) h
  · exact hseconds _ (by decide) h
  · cases hunforeseen with
    | logKeys hne => exact absurd hnames hne

/-! ### The whole of it -/

/-- What becomes of the keys that stand in a section which does not define them. -/
structure StrayKeys (fields : Fields) (outcome : Except Fault Settings) : Prop where
  eks : ∀ key, Stray fields "eks" key →
    ∃ unknown, key ∈ unknown ∧ outcome = .error (.unknownKeys "eks" unknown)
  /-- There are no settings, and a message says why, unless a wait is turned down before that no
double can hold or no message can quote. -/
  log : ∀ key, Stray fields "log" key → ∃ f, outcome = .error f ∧
    (f.Reported ∨ ∃ key ∈ waitKeys, MistakenSeconds key (fields.at? ["wait", key]) f ∧
      Unforeseen fields (.seconds key))
  /-- It is as if they were not there. -/
  wait : outcome = ofFields (onlyDefinedWaits fields)

theorem exists_sectionOf_combine {shared project : Fields} (hshared : shared.Tidy)
    (hproject : project.Tidy) (hsections : Sectioned shared) (hsections' : Sectioned project)
    {name : String} (hname : name ∈ sections) :
    ∃ inner, sectionOf (combine shared project) name = .table inner ∧
      (Fields.keys inner).Nodup := by
  obtain ⟨lower, hlower⟩ := exists_sectionOf (hsections name hname)
  obtain ⟨upper, hupper⟩ := exists_sectionOf (hsections' name hname)
  refine ⟨Fields.merge lower upper, ?_, Fields.nodup_keys_merge
    (nodup_keys_of_sectionOf hshared hlower) (nodup_keys_of_sectionOf hproject hupper)⟩
  rw [sectionOf_combine hname, sectionOf_merge hproject hlower hupper]

theorem Stray.of_section {fields inner : Fields} {section_ key : String} {known : List String}
    (h : Stray fields section_ key) (hsection : sectionOf fields section_ = .table inner)
    (hknown : ∀ other, (section_, other) ∈ knownKeys → other = known) :
    key ∈ Fields.keys inner ∧ key ∉ known := by
  obtain ⟨hthere, other, hother, hstray⟩ := h
  rw [at?_section_of_table hsection, Option.isSome_iff_exists] at hthere
  exact ⟨Fields.mem_keys_iff.mpr hthere, hknown other hother ▸ hstray⟩

/-- Of two files whose sections are tables, a key that its section does not define is told by its
name in the section of the connection, and keeps settings from being made in the section of the log;
but in the section of waits it passes unnoticed. -/
theorem stray_keys_noticed_but_for_waits {shared project : Source}
    {sharedFields projectFields : Fields} (hshared : shared.read .shared = .ok sharedFields)
    (hproject : project.read .project = .ok projectFields) (hsections : Sectioned sharedFields)
    (hsections' : Sectioned projectFields) :
    StrayKeys (combine sharedFields projectFields) (ofSources shared project) := by
  have hfields : ofSources shared project = ofFields (combine sharedFields projectFields) := by
    rw [ofSources, load, hshared, hproject]
    rfl
  have htable (name : String) (hname : name ∈ sections) :=
    exists_sectionOf_combine (tidy_of_read hshared) (tidy_of_read hproject) hsections hsections'
      hname
  rw [hfields]
  constructor
  · intro key hstray
    obtain ⟨eks, heks, hnodup⟩ := htable "eks" (by decide)
    have hknown : ∀ other, ("eks", other) ∈ knownKeys → other = Eks.Connection.keys := by
      simp [knownKeys]
    obtain ⟨hkey, hstray⟩ := hstray.of_section heks hknown
    exact ofFields_of_stray_eks heks hnodup hkey hstray
  · intro key hstray
    obtain ⟨log, hlog, -⟩ := htable "log" (by decide)
    have hknown : ∀ other, ("log", other) ∈ knownKeys → other = Log.Config.keys := by
      simp [knownKeys]
    obtain ⟨hkey, hstray⟩ := hstray.of_section hlog hknown
    refine exists_error_of_stray_log (fun name hname => ?_) hlog hkey hstray
    obtain ⟨inner, hinner, -⟩ := htable name hname
    rw [hinner]
    rfl
  · obtain ⟨wait, hwait, -⟩ := htable "wait" (by decide)
    exact (ofFields_onlyDefinedWaits hwait).symm

/-- A mistyped interval leads to the same settings as no file at all, with the usual interval. -/
theorem stray_keys_noticed_but_for_waits_of_mistyped_interval :
    ∃ project : Source, ∃ fields s, project.read .project = .ok fields ∧ Sectioned fields ∧
      Stray (combine [] fields) "wait" "poll_intervall" ∧ ofSources .missing project = .ok s ∧
      s.pollInterval = Watch.defaultPollInterval ∧
      ofFields (onlyDefinedWaits (combine [] fields)) = .ok s := by
  let project : Source := .file "[wait]\npoll_intervall = 2\n".toUTF8
  have hread : (project.read .project).toOption.any (fun fields =>
      sections.all (fun name => (fields.at? [name]).all Value.isTable) &&
        ((combine [] fields).at? ["wait", "poll_intervall"]).isSome &&
          ((combine [] fields).at? ["wait", "poll_interval"]).isNone) = true := by
    decide +kernel
  obtain ⟨fields, hfields⟩ : ∃ fields, project.read .project = .ok fields :=
    faultOf?_eq_none_iff.mp (Option.isNone_iff_eq_none.mp (by decide +kernel))
  obtain ⟨s, hs⟩ : ∃ s, ofSources .missing project = .ok s :=
    faultOf?_eq_none_iff.mp (Option.isNone_iff_eq_none.mp (by decide +kernel))
  rw [hfields] at hread
  simp only [Except.toOption, Option.any_some, Bool.and_eq_true, List.all_eq_true,
    Option.isNone_iff_eq_none] at hread
  obtain ⟨⟨hsections, hthere⟩, hnone⟩ := hread
  have hmissing : Source.read .shared .missing = .ok [] := rfl
  have hnoSections : Sectioned [] := by intro name _; rfl
  have hstray := stray_keys_noticed_but_for_waits hmissing hfields hnoSections hsections
  have hinterval : s.pollInterval = Watch.defaultPollInterval := by
    have hload : ofSources .missing project = ofFields (combine [] fields) := by
      rw [ofSources, load, hmissing, hfields]
      rfl
    obtain ⟨-, ⟨wait, hwait, -, ⟨given, hgiven, hpoll⟩, -⟩, -⟩ :=
      ofFields_eq_ok_iff.mp (hload ▸ hs)
    rw [at?_section_of_table (tableOf_eq_ok_iff.mp hwait)] at hnone
    rw [seconds?_eq_ok_iff, hnone] at hgiven
    cases hgiven
    exact hpoll
  exact ⟨project, fields, s, hfields, hsections, ⟨hthere, waitKeys, by decide, by decide⟩, hs,
    hinterval, hstray.wait.symm.trans hs⟩

end Vigil.Settings
