import Vigil.Failure.Absence
import Vigil.Proofs.Value.Spelling

/-!
# Absence told by wording

The service says that something is gone with a code of its own and with how its message begins.  On
other paths the failure arrives wrapped in one of another kind, and only a phrase in its text is
left.  Both ways have to lead to the same verdict, or a watch would keep asking for something that
is gone, only because somebody had caught the refusal and raised it anew.  A failure that has no
text leads to no verdict.
-/

namespace Vigil

/-! ### Phrases in texts -/

/-- The phrase stands somewhere in the text. -/
def Mentions (text phrase : String) : Prop :=
  ∃ before after : String, text = before ++ phrase ++ after

theorem Mentions.trans {text middle phrase : String} (h : Mentions text middle)
    (h' : Mentions middle phrase) : Mentions text phrase := by
  obtain ⟨before, after, rfl⟩ := h
  obtain ⟨before', after', rfl⟩ := h'
  exact ⟨before ++ before', after' ++ after, by simp only [String.append_assoc]⟩

theorem mentions_append (before phrase : String) : Mentions (before ++ phrase) phrase :=
  ⟨before, "", by rw [String.append_empty]⟩

theorem mentions_of_begins (phrase after : String) : Mentions (phrase ++ after) phrase :=
  ⟨"", after, by rw [String.empty_append]⟩

theorem Text.contains_iff {text phrase : String} :
    Text.contains text phrase = true ↔ Mentions text phrase := by
  rw [Text.contains, Text.occursIn_iff]
  constructor
  · rintro ⟨before, after, h⟩
    exact ⟨String.ofList before, String.ofList after, String.toList_inj.mp (by simp [← h])⟩
  · rintro ⟨before, after, rfl⟩
    exact ⟨before.toList, after.toList, by simp⟩

theorem Text.startsWith_iff {text phrase : String} :
    Text.startsWith text phrase = true ↔ ∃ after : String, text = phrase ++ after := by
  rw [Text.startsWith, List.isPrefixOf_iff_prefix]
  constructor
  · rintro ⟨after, h⟩
    exact ⟨String.ofList after, String.toList_inj.mp (by simp [← h])⟩
  · rintro ⟨after, rfl⟩
    exact ⟨after.toList, by simp⟩

theorem Value.shown_of_asText? {v : Value} {s : String} (h : v.asText? = some s) :
    v.shown = .ok s := by
  cases v <;> cases h <;> rfl

/-! ### What a refusal says -/

namespace Refusal

/-- The text of a refusal ends with its message. -/
theorem mentions_message {r : Refusal} {message : String} (h : partText r.message = .ok message) :
    Mentions r.text message := by
  obtain ⟨code, -, hspelled⟩ := bind_eq_ok_iff.mp r.spelled
  obtain ⟨retries, -, hspelled⟩ := bind_eq_ok_iff.mp hspelled
  obtain ⟨message', hmessage, hspelled⟩ := bind_eq_ok_iff.mp hspelled
  obtain rfl := Except.ok.inj (h.symm.trans hmessage)
  rw [← Except.ok.inj hspelled]
  exact mentions_append _ _

/-- The refusal has the code that tells that something does not exist. -/
def HasNotFoundCode (r : Refusal) : Prop :=
  (r.code.getD (.text "")).asText? = some notFoundCode

/-- The message is a text that begins with the phrase. -/
def Begins (r : Refusal) (phrase : String) : Prop :=
  ∃ message after, r.message = some message ∧ message.asText? = some (phrase ++ after)

theorem Begins.mentions {r : Refusal} {phrase : String} (h : r.Begins phrase) :
    Mentions r.text phrase := by
  obtain ⟨message, after, hmessage, htext⟩ := h
  have hpart : partText r.message = .ok (phrase ++ after) := by
    rw [hmessage]
    exact Value.shown_of_asText? htext
  exact (mentions_message hpart).trans (mentions_of_begins phrase after)

theorem Begins.shorten {r : Refusal} {phrase : String} (after : String)
    (h : r.Begins (phrase ++ after)) : r.Begins phrase := by
  obtain ⟨message, rest, hmessage, htext⟩ := h
  exact ⟨message, after ++ rest, hmessage, by rw [htext, String.append_assoc]⟩

end Refusal

namespace Failure

/-- If the failure is a refusal, its message is a text or missing. -/
def Worded : Failure → Prop
  | refused r => (r.message.getD (.text "")).asText?.isSome = true
  | _ => True

end Failure

/-! ### Verdicts from wording -/

namespace AbsenceRule

variable {rule : AbsenceRule} {f : Failure} {text : String}

/-- The failure is a refusal whose code and message say that the resource is gone. -/
def Told (rule : AbsenceRule) (f : Failure) : Prop :=
  ∃ r, f = .refused r ∧ r.HasNotFoundCode ∧ r.Begins rule.opening

/-- What the code and the message of a failure say, apart from its text. -/
def structured (rule : AbsenceRule) : Failure → Except Defect Bool
  | .refused r => rule.matchesRefusal r
  | _ => .ok false

/-- The text of a failure is looked at after its code and message. -/
theorem isAbsent_eq_bind (rule : AbsenceRule) (f : Failure) :
    rule.isAbsent f = do
      if ← rule.structured f then return true
      else return Text.contains (← f.text) rule.phrase := by
  cases f <;> rfl

theorem isAbsent_eq (rule : AbsenceRule) (htext : f.text = .ok text) :
    rule.isAbsent f =
      (rule.structured f).map fun told => told || Text.contains text rule.phrase := by
  rw [isAbsent_eq_bind, htext]
  rcases rule.structured f with d | _ | _ <;> rfl

/-- A failure without a text has no verdict: nobody can say whether a phrase is in it. -/
theorem isAbsent_eq_error (rule : AbsenceRule) {d : Defect} (htext : f.text = .error d) :
    rule.isAbsent f = .error d := by
  rw [isAbsent_eq_bind, htext]
  cases f with
  | refused r => cases htext
  | _ => rfl

theorem exists_text_of_isAbsent {gone : Bool} (h : rule.isAbsent f = .ok gone) :
    ∃ text, f.text = .ok text := by
  cases htext : f.text with
  | ok text => exact ⟨text, rfl⟩
  | error d => cases h.symm.trans (rule.isAbsent_eq_error htext)

theorem matchesRefusal_eq_ok_true_iff (hopening : rule.opening ≠ "") {r : Refusal} :
    rule.matchesRefusal r = .ok true ↔ r.HasNotFoundCode ∧ r.Begins rule.opening := by
  rw [matchesRefusal, Refusal.HasNotFoundCode]
  by_cases hcode : (r.code.getD (.text "")).asText? = some notFoundCode
  · rw [if_pos hcode, Refusal.Begins]
    cases hmessage : r.message with
    | none =>
        -- a missing message is read as an empty text, which begins with nothing but itself
        have hempty : Text.startsWith "" rule.opening = false := by
          rw [Bool.eq_false_iff, ne_eq, Text.startsWith_iff]
          rintro ⟨after, h⟩
          exact hopening (String.append_eq_empty_iff.mp h.symm).1
        simp [Value.asText?, hempty]
    | some message =>
        cases htext : message.asText? with
        | none => simp [htext]
        | some text => simp [hcode, htext, Text.startsWith_iff]
  · simp [hcode]

theorem structured_eq_ok_true_iff (hopening : rule.opening ≠ "") :
    rule.structured f = .ok true ↔ rule.Told f := by
  cases f with
  | refused r => simp [structured, Told, matchesRefusal_eq_ok_true_iff hopening]
  | _ => simp [structured, Told]

theorem exists_structured (rule : AbsenceRule) (h : f.Worded) :
    ∃ told, rule.structured f = .ok told := by
  cases f with
  | refused r =>
      obtain ⟨message, hmessage⟩ := Option.isSome_iff_exists.mp h
      rw [structured, matchesRefusal, hmessage]
      split <;> exact ⟨_, rfl⟩
  | _ => exact ⟨_, rfl⟩

theorem exists_isAbsent (rule : AbsenceRule) (h : f.Worded) (htext : f.text = .ok text) :
    ∃ gone, rule.isAbsent f = .ok gone := by
  obtain ⟨told, htold⟩ := rule.exists_structured h
  exact ⟨_, by rw [rule.isAbsent_eq htext, htold]; rfl⟩

theorem told_or_mentions_of_isAbsent (hopening : rule.opening ≠ "") (htext : f.text = .ok text)
    (h : rule.isAbsent f = .ok true) : rule.Told f ∨ Mentions text rule.phrase := by
  rw [rule.isAbsent_eq htext] at h
  cases htold : rule.structured f with
  | error d =>
      rw [htold] at h
      cases h
  | ok told =>
      rw [htold, Except.map, Except.ok.injEq, Bool.or_eq_true, Text.contains_iff] at h
      rcases h with rfl | h
      · exact .inl ((structured_eq_ok_true_iff hopening).mp htold)
      · exact .inr h

theorem isAbsent_of_told (hopening : rule.opening ≠ "") (h : rule.Told f) :
    rule.isAbsent f = .ok true := by
  obtain ⟨r, rfl, -, -⟩ := id h
  rw [rule.isAbsent_eq rfl, (structured_eq_ok_true_iff hopening).mpr h, Except.map, Bool.true_or]

theorem isAbsent_of_mentions (hworded : f.Worded) (htext : f.text = .ok text)
    (h : Mentions text rule.phrase) : rule.isAbsent f = .ok true := by
  obtain ⟨told, htold⟩ := rule.exists_structured hworded
  rw [rule.isAbsent_eq htext, htold, Except.map, Text.contains_iff.mpr h, Bool.or_true]

/-- A failure that mentions what a recognised one says has its verdict. -/
theorem classify_eq_of_mentions {g : Failure} {said : String} (hgone : rule.isAbsent f = .ok true)
    (hphrase : Mentions said rule.phrase) (hworded : g.Worded) (htext : g.text = .ok text)
    (h : Mentions text said) :
    rule.isAbsent g = .ok true ∧
      ∀ absenceDesired, classify rule.isAbsent g absenceDesired =
        classify rule.isAbsent f absenceDesired := by
  have hgone' := isAbsent_of_mentions hworded htext (h.trans hphrase)
  exact ⟨hgone', fun absenceDesired => by rw [classify, classify, hgone, hgone']⟩

end AbsenceRule

/-! ### Clusters and updates -/

/-- A missing update is told by its phrase, whatever form the failure has: its message begins with
more than the phrase. -/
theorem mentions_of_update_isAbsent {f : Failure} {text : String} (htext : f.text = .ok text)
    (h : updateAbsence.isAbsent f = .ok true) : Mentions text updateAbsence.phrase := by
  rcases AbsenceRule.told_or_mentions_of_isAbsent (by decide) htext h with ⟨r, rfl, -, hbegins⟩ | h
  · obtain rfl : r.text = text := Except.ok.inj htext
    exact (Refusal.Begins.shorten " for" hbegins).mentions
  · exact h

/-- By the text alone it is told whether an update is missing, and nothing is told of a failure
without a text; a refusal whose message begins with the whole phrase about clusters is recognised,
and mentions the phrase; and in both cases every failure whose text contains that of the recognised
one has the same verdict and the same meaning. -/
theorem absence_survives_wrapping :
    (∀ f : Failure, f.Worded →
      (∀ text, f.text = .ok text → ∃ gone, updateAbsence.isAbsent f = .ok gone ∧
        (gone = true ↔ Mentions text "No update found")) ∧
      ∀ d, f.text = .error d → updateAbsence.isAbsent f = .error d) ∧
    (∀ r : Refusal, r.HasNotFoundCode → r.Begins "No cluster found for name: " →
      clusterAbsence.isAbsent (.refused r) = .ok true ∧
        ∃ said, (Failure.refused r).text = .ok said ∧ Mentions said clusterAbsence.phrase) ∧
    ∀ rule f, (rule = updateAbsence ∧ rule.isAbsent f = .ok true ∨
        rule = clusterAbsence ∧ ∃ r, f = .refused r ∧ r.HasNotFoundCode ∧
          r.Begins "No cluster found for name: ") →
      ∃ said, f.text = .ok said ∧ ∀ (g : Failure) (text : String), g.Worded → g.text = .ok text →
        Mentions text said → rule.isAbsent g = .ok true ∧
          ∀ absenceDesired, classify rule.isAbsent g absenceDesired =
            classify rule.isAbsent f absenceDesired := by
  have hcluster (r : Refusal) (hcode : r.HasNotFoundCode)
      (hbegins : r.Begins "No cluster found for name: ") :
      clusterAbsence.isAbsent (.refused r) = .ok true ∧
        Mentions r.text clusterAbsence.phrase := by
    refine ⟨AbsenceRule.isAbsent_of_told (by decide) ⟨r, rfl, hcode, ?_⟩, hbegins.mentions⟩
    exact Refusal.Begins.shorten " name: " hbegins
  refine ⟨fun f hworded => ⟨fun text htext => ?_, fun d => updateAbsence.isAbsent_eq_error⟩,
    fun r hcode hbegins => ?_, ?_⟩
  · obtain ⟨gone, hgone⟩ := updateAbsence.exists_isAbsent hworded htext
    refine ⟨gone, hgone, ?_, fun hmentions => ?_⟩
    · rintro rfl
      exact mentions_of_update_isAbsent htext hgone
    · have htrue : updateAbsence.isAbsent f = .ok true :=
        AbsenceRule.isAbsent_of_mentions hworded htext hmentions
      exact Except.ok.inj (hgone.symm.trans htrue)
  · obtain ⟨hgone, hphrase⟩ := hcluster r hcode hbegins
    exact ⟨hgone, r.text, rfl, hphrase⟩
  · rintro rule f (⟨rfl, hgone⟩ | ⟨rfl, r, rfl, hcode, hbegins⟩)
    · obtain ⟨said, hsaid⟩ := AbsenceRule.exists_text_of_isAbsent hgone
      have hphrase := mentions_of_update_isAbsent hsaid hgone
      exact ⟨said, hsaid, fun g text => AbsenceRule.classify_eq_of_mentions hgone hphrase⟩
    · obtain ⟨hgone, hphrase⟩ := hcluster r hcode hbegins
      exact ⟨r.text, rfl, fun g text => AbsenceRule.classify_eq_of_mentions hgone hphrase⟩

/-- A refusal that was caught and raised anew, with words of the caller around it. -/
theorem absence_survives_wrapping_of_rethrown :
    ∃ (r : Refusal) (g missing : Failure), (∀ other, g ≠ .refused other) ∧
      r.HasNotFoundCode ∧ r.Begins "No cluster found for name: " ∧
      g.text = .ok ("lookup failed: " ++ r.text ++ " (giving up)") ∧
      clusterAbsence.isAbsent (.refused r) = .ok true ∧ clusterAbsence.isAbsent g = .ok true ∧
      classify clusterAbsence.isAbsent g true = .ok .absentExpected ∧
      missing.Worded ∧ updateAbsence.isAbsent missing = .ok true := by
  let r : Refusal :=
    ⟨some (.text notFoundCode), some (.text "No cluster found for name: demo."), some (.whole 4),
      "DescribeCluster", _, rfl⟩
  let g : Failure := .foreign "RuntimeError" [.text ("lookup failed: " ++ r.text ++ " (giving up)")]
  let missing : Failure := .refused
    (Refusal.ofTexts notFoundCode "No update found for ID: 10bddb13" "DescribeUpdate")
  obtain ⟨hupdate, hcluster, hwrapped⟩ := absence_survives_wrapping
  have hbegins : r.Begins "No cluster found for name: " := ⟨_, "demo.", rfl, rfl⟩
  have htext : g.text = .ok ("lookup failed: " ++ r.text ++ " (giving up)") := rfl
  obtain ⟨hgone, -⟩ := hcluster r rfl hbegins
  obtain ⟨said, hsaid, hsame⟩ := hwrapped clusterAbsence (.refused r)
    (.inr ⟨rfl, r, rfl, rfl, hbegins⟩)
  obtain rfl : r.text = said := Except.ok.inj hsaid
  obtain ⟨hgone', hclassify⟩ := hsame g _ trivial htext ⟨_, _, rfl⟩
  obtain ⟨gone, hmissing, hmentions⟩ := (hupdate missing rfl).1 _ rfl
  refine ⟨r, g, missing, nofun, rfl, hbegins, htext, hgone, hgone', ?_, rfl, ?_⟩
  · rw [hclassify, classify, hgone]
    rfl
  · rw [hmissing, hmentions.mpr (Text.contains_iff.mp (by decide +kernel))]

end Vigil
