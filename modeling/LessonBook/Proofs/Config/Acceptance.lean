import LessonBook.Proofs.Config.Rules
import LessonBook.Proofs.Json.KeyOrder

/-!
Which values hold settings: the objects whose keys all name a setting, with a value
under each that follows its rule. The settings agree with the object that they were
read from, and their own object reads back as the same settings.
-/

namespace LessonBook.Config

open Text

def IsLanguageName (text : Text) : Prop :=
  text ≠ [] ∧ ∀ c ∈ text, ('A' ≤ c ∧ c ≤ 'Z') ∨ ('a' ≤ c ∧ c ≤ 'z') ∨ ('0' ≤ c ∧ c ≤ '9') ∨
    c = '_' ∨ c = '-'

/-- The value under the name of a setting follows the rule of that setting. -/
def FollowsRule (field : String) (value : Json) : Prop :=
  (field ∈ ["kernelName", "kernelDisplayName", "inputSuffix", "outputSuffix"] ∧
      ∃ text, value = .string text ∧ text ≠ []) ∨
    (field = "language" ∧ ∃ text, value = .string text ∧ IsLanguageName text) ∨
    (field = "onError" ∧ ∃ name ∈ ["abort", "continue"], value = .ofString name) ∨
    (field = "haltLevel" ∧ ∃ name ∈ ["info", "warning", "error", "severe"], value = .ofString name)

def IsAdmitted (data : Json) : Prop :=
  ∃ entries, data = .object entries ∧
    (∀ key ∈ Record.keys entries, key ∈ fieldNames.map String.toList) ∧
    ∀ field value, data.find? field = some value → FollowsRule field value

/-- A setting is what its key holds, if that follows the rule, and the default where
there is no such key. -/
def Holds {Value : Type} (Rule : Value → Prop) (spelling : Value → Json) (default : Value)
    (found : Option Json) (value : Value) : Prop :=
  (found = none ∧ value = default) ∨ (found = some (spelling value) ∧ Rule value)

/-- The settings that are read from an object. -/
structure ReadFrom (data : Json) (config : Config) : Prop where
  kernelName : Holds (· ≠ []) .string "python".toList (data.find? "kernelName") config.kernelName
  kernelDisplayName : Holds (· ≠ []) .string "Python (Pyodide)".toList
    (data.find? "kernelDisplayName") config.kernelDisplayName
  inputSuffix : Holds (· ≠ []) .string ".Rmd".toList (data.find? "inputSuffix") config.inputSuffix
  outputSuffix : Holds (· ≠ []) .string ".ipynb".toList (data.find? "outputSuffix")
    config.outputSuffix
  language : Holds IsLanguageName .string defaultLanguage (data.find? "language") config.language
  onError : Holds (fun _ => True) (fun policy => .ofString policy.name) .abort
    (data.find? "onError") config.onError
  haltLevel : Holds (fun _ => True) (fun severity => .ofString severity.name) .severe
    (data.find? "haltLevel") config.haltLevel

variable {data : Json} {field : String} {entries : List (Text × Json)} {config : Config}

theorem is_language_iff (text : Text) : isLanguage text = true ↔ IsLanguageName text := by
  have character (c : Char) : (isWordChar c || c == '-') = true ↔
      ('A' ≤ c ∧ c ≤ 'Z') ∨ ('a' ≤ c ∧ c ≤ 'z') ∨ ('0' ≤ c ∧ c ≤ '9') ∨ c = '_' ∨ c = '-' := by
    have upper : c.isUpper = true ↔ 'A' ≤ c ∧ c ≤ 'Z' := decide_eq_true_iff
    have lower : c.isLower = true ↔ 'a' ≤ c ∧ c ≤ 'z' :=
      Bool.and_eq_true_iff.trans (and_congr decide_eq_true_iff decide_eq_true_iff)
    have digit : c.isDigit = true ↔ '0' ≤ c ∧ c ≤ '9' :=
      Bool.and_eq_true_iff.trans (and_congr decide_eq_true_iff decide_eq_true_iff)
    have alphanumeric : c.isAlphanum = true ↔
        (c.isUpper = true ∨ c.isLower = true) ∨ c.isDigit = true :=
      Bool.or_eq_true_iff.trans (or_congr_left Bool.or_eq_true_iff)
    rw [isWordChar, Bool.or_eq_true, Bool.or_eq_true, alphanumeric, upper, lower, digit,
      beq_iff_eq, beq_iff_eq]
    simp only [or_assoc]
  simp only [isLanguage, IsLanguageName, ne_eq, Bool.and_eq_true, Bool.not_eq_true',
    List.isEmpty_eq_false_iff, List.all_eq_true, character]

theorem text_field_eq_ok_iff {default value : Text} {check : Text → Option ConfigIssue}
    {Rule : Text → Prop} (rule : ∀ written, check written = none ↔ Rule written) :
    textField field default check data = .ok value ↔
      Holds Rule .string default (data.find? field) value := by
  cases found : data.find? field with
  | none => simp [textField, Holds, found, eq_comm]
  | some held =>
      cases held with
      | string text =>
          rw [text_field_of_found field found]
          cases accepted : check text with
          | none =>
              have follows := (rule text).mp accepted
              constructor
              · intro same
                cases same
                exact .inr ⟨rfl, follows⟩
              · rintro (⟨absent, -⟩ | ⟨same, -⟩)
                · cases absent
                · cases same
                  rfl
          | some issue =>
              constructor
              · intro same
                cases same
              · rintro (⟨absent, -⟩ | ⟨same, follows⟩)
                · cases absent
                · cases same
                  rw [(rule _).mpr follows] at accepted
                  cases accepted
      | _ => simp [textField, Holds, found]

theorem option_field_eq_ok_iff {Value : Type} {default value : Value}
    {ofName? : String → Option Value} {nameOf : Value → String} {names : List String}
    (named : ∀ name value, ofName? name = some value ↔ name = nameOf value) :
    optionField field default ofName? names data = .ok value ↔
      Holds (fun _ => True) (fun value => .ofString (nameOf value)) default (data.find? field)
        value := by
  cases found : data.find? field with
  | none => simp [optionField, Holds, found, eq_comm]
  | some held =>
      cases held with
      | string name =>
          have spelled (value : Value) : Json.string name = .ofString (nameOf value) ↔
              ofName? (String.ofList name) = some value := by
            rw [named, Json.ofString, Json.string.injEq, ← String.ofList_inj, String.ofList_toList]
          simp only [optionField, Holds, found, Option.some.injEq, spelled, and_true, reduceCtorEq,
            false_and, false_or]
          cases ofName? (String.ofList name) <;> simp
      | _ => simp [optionField, Holds, found, Json.ofString]

theorem policy_named (name : String) (policy : FailurePolicy) :
    FailurePolicy.ofName? name = some policy ↔ name = policy.name := by
  constructor
  · intro found
    have same : policy.name = name := by simpa using List.find?_some found
    exact same.symm
  · rintro rfl
    exact of_name_policy policy

theorem severity_named (name : String) (severity : Severity) :
    Severity.ofName? name = some severity ↔ name = severity.name := by
  constructor
  · intro found
    have same : severity.name = name := by simpa using List.find?_some found
    exact same.symm
  · rintro rfl
    exact of_name_severity severity

theorem key_issues_eq_nil_iff : keyIssues entries = [] ↔
    ∀ key ∈ Record.keys entries, key ∈ fieldNames.map String.toList ∨ key = Record.reservedKey := by
  have same (key : Text) : key ∈ Record.keys (Record.inKeyOrder entries) ↔
      key ∈ Record.keys entries :=
    ((Record.in_key_order_perm entries).map Prod.fst).mem_iff
  have silent : keyIssues entries = [] ↔ unknownKeys entries = [] := by
    rw [keyIssues]
    split <;> simp_all
  rw [silent, unknownKeys, List.filter_eq_nil_iff]
  simp only [same]
  refine forall₂_congr fun key _ => ?_
  by_cases known : key ∈ fieldNames.map String.toList <;> simp [known]

/-- An object is read exactly as its settings say. -/
theorem of_entries_eq_ok_iff : ofEntries entries = .ok config ↔
    ReadFrom (.object entries) config ∧ keyIssues entries = [] := by
  have text {field : String} {default value : Text} :
      textField field default (notEmpty field) (.object entries) = .ok value ↔
        Holds (· ≠ []) .string default ((Json.object entries).find? field) value :=
    text_field_eq_ok_iff fun _ => not_empty_eq_none
  have language {default value : Text} :
      textField "language" default languageIssue (.object entries) = .ok value ↔
        Holds IsLanguageName .string default ((Json.object entries).find? "language") value :=
    text_field_eq_ok_iff fun text => language_issue_eq_none.trans (is_language_iff text)
  have policy {default value : FailurePolicy} {names : List String} :
      optionField "onError" default FailurePolicy.ofName? names (.object entries) = .ok value ↔
        Holds (fun _ => True) (fun policy : FailurePolicy => .ofString policy.name) default
          ((Json.object entries).find? "onError") value :=
    option_field_eq_ok_iff policy_named
  have severity {default value : Severity} {names : List String} :
      optionField "haltLevel" default Severity.ofName? names (.object entries) = .ok value ↔
        Holds (fun _ => True) (fun severity : Severity => .ofString severity.name) default
          ((Json.object entries).find? "haltLevel") value :=
    option_field_eq_ok_iff severity_named
  simp only [ofEntries]
  constructor
  · intro read
    split at read
    · rename_i kernelName kernelDisplayName inputSuffix outputSuffix named onError haltLevel keys
      cases read
      exact ⟨⟨text.mp kernelName, text.mp kernelDisplayName, text.mp inputSuffix,
        text.mp outputSuffix, language.mp named, policy.mp onError, severity.mp haltLevel⟩, keys⟩
    · cases read
  · rintro ⟨read, keys⟩
    rw [text.mpr read.kernelName, text.mpr read.kernelDisplayName, text.mpr read.inputSuffix,
      text.mpr read.outputSuffix, language.mpr read.language, policy.mpr read.onError,
      severity.mpr read.haltLevel, keys]

theorem text_of_rule {held : Json}
    (plain : field ∈ ["kernelName", "kernelDisplayName", "inputSuffix", "outputSuffix"])
    (rule : FollowsRule field held) : ∃ text, held = .string text ∧ text ≠ [] := by
  rcases rule with ⟨-, found⟩ | ⟨rfl, -⟩ | ⟨rfl, -⟩ | ⟨rfl, -⟩
  · exact found
  · exact absurd plain (by decide)
  · exact absurd plain (by decide)
  · exact absurd plain (by decide)

theorem language_of_rule {held : Json} (rule : FollowsRule "language" held) :
    ∃ text, held = .string text ∧ IsLanguageName text := by
  simpa [FollowsRule] using rule

theorem policy_of_rule {held : Json} (rule : FollowsRule "onError" held) :
    ∃ policy : FailurePolicy, held = .ofString policy.name ∧ True := by
  have options : held = .ofString "abort" ∨ held = .ofString "continue" := by
    simpa [FollowsRule] using rule
  rcases options with rfl | rfl
  · exact ⟨.abort, rfl, trivial⟩
  · exact ⟨.continue, rfl, trivial⟩

theorem severity_of_rule {held : Json} (rule : FollowsRule "haltLevel" held) :
    ∃ severity : Severity, held = .ofString severity.name ∧ True := by
  have options : held = .ofString "info" ∨ held = .ofString "warning" ∨ held = .ofString "error" ∨
      held = .ofString "severe" := by
    simpa [FollowsRule] using rule
  rcases options with rfl | rfl | rfl | rfl
  · exact ⟨.info, rfl, trivial⟩
  · exact ⟨.warning, rfl, trivial⟩
  · exact ⟨.error, rfl, trivial⟩
  · exact ⟨.severe, rfl, trivial⟩

theorem exists_holds {Value : Type} {Rule : Value → Prop} {spelling : Value → Json}
    (default : Value)
    (follows : ∀ value, data.find? field = some value → FollowsRule field value)
    (spelled : ∀ {held}, FollowsRule field held → ∃ value, held = spelling value ∧ Rule value) :
    ∃ value, Holds Rule spelling default (data.find? field) value := by
  cases found : data.find? field with
  | none => exact ⟨default, .inl ⟨rfl, rfl⟩⟩
  | some held =>
      obtain ⟨value, rfl, rule⟩ := spelled (follows held found)
      exact ⟨value, .inr ⟨rfl, rule⟩⟩

theorem exists_read_from
    (follows : ∀ field value, data.find? field = some value → FollowsRule field value) :
    ∃ config, ReadFrom data config := by
  obtain ⟨kernelName, holdsName⟩ := exists_holds "python".toList (follows "kernelName")
    (text_of_rule (by simp))
  obtain ⟨kernelDisplayName, holdsDisplayName⟩ := exists_holds "Python (Pyodide)".toList
    (follows "kernelDisplayName") (text_of_rule (by simp))
  obtain ⟨inputSuffix, holdsInput⟩ := exists_holds ".Rmd".toList (follows "inputSuffix")
    (text_of_rule (by simp))
  obtain ⟨outputSuffix, holdsOutput⟩ := exists_holds ".ipynb".toList (follows "outputSuffix")
    (text_of_rule (by simp))
  obtain ⟨language, holdsLanguage⟩ := exists_holds defaultLanguage (follows "language")
    language_of_rule
  obtain ⟨onError, holdsPolicy⟩ := exists_holds .abort (follows "onError") policy_of_rule
  obtain ⟨haltLevel, holdsLevel⟩ := exists_holds .severe (follows "haltLevel") severity_of_rule
  exact ⟨⟨kernelName, kernelDisplayName, inputSuffix, outputSuffix, language, onError, haltLevel⟩,
    holdsName, holdsDisplayName, holdsInput, holdsOutput, holdsLanguage, holdsPolicy, holdsLevel⟩

theorem Holds.agrees {Value : Type} {Rule : Value → Prop} {spelling : Value → Json}
    {default value : Value} {held : Json}
    (holds : Holds Rule spelling default (data.find? field) value)
    (found : data.find? field = some held)
    (spelled : config.toJson.find? field = some (spelling value))
    (follows : Rule value → FollowsRule field (spelling value)) :
    config.toJson.find? field = some held ∧ FollowsRule field held := by
  rcases holds with ⟨absent, -⟩ | ⟨here, rule⟩
  · rw [absent] at found
    cases found
  · rw [here] at found
    cases found
    exact ⟨spelled, follows rule⟩

theorem ReadFrom.agrees (read : ReadFrom data config) {held : Json} (known : field ∈ fieldNames)
    (found : data.find? field = some held) :
    config.toJson.find? field = some held ∧ FollowsRule field held := by
  have option {names : List String} {name : String} (listed : name ∈ names) :
      ∃ other ∈ names, Json.ofString name = .ofString other := ⟨name, listed, rfl⟩
  have policy : config.onError.name ∈ ["abort", "continue"] := by cases config.onError <;> decide
  have severity : config.haltLevel.name ∈ ["info", "warning", "error", "severe"] := by
    cases config.haltLevel <;> decide
  have text {field : String} {text : Text}
      (plain : field ∈ ["kernelName", "kernelDisplayName", "inputSuffix", "outputSuffix"])
      (present : text ≠ []) : FollowsRule field (.string text) := .inl ⟨plain, text, rfl, present⟩
  simp only [fieldNames, List.mem_cons, List.not_mem_nil, or_false] at known
  rcases known with rfl | rfl | rfl | rfl | rfl | rfl | rfl
  · exact read.kernelName.agrees found rfl (text (by simp))
  · exact read.kernelDisplayName.agrees found rfl (text (by simp))
  · exact read.inputSuffix.agrees found rfl (text (by simp))
  · exact read.outputSuffix.agrees found rfl (text (by simp))
  · exact read.language.agrees found rfl fun named => .inr (.inl ⟨rfl, _, rfl, named⟩)
  · exact read.onError.agrees found rfl fun _ => .inr (.inr (.inl ⟨rfl, option policy⟩))
  · exact read.haltLevel.agrees found rfl fun _ => .inr (.inr (.inr ⟨rfl, option severity⟩))

theorem of_json_eq_ok_iff {source : Option Text} : ofJson source data = .ok config ↔
    ∃ entries, data = .object entries ∧ ofEntries entries = .ok config := by
  cases data with
  | object entries =>
      cases accepted : ofEntries entries <;> simp [ofJson, accepted]
  | _ => simp [ofJson]

theorem mem_keys_of_found {value : Json} (found : (Json.object entries).find? field = some value) :
    field.toList ∈ Record.keys entries := by
  by_contra absent
  rw [Json.find?, Record.find_none_iff.mpr absent] at found
  cases found

/-- Without the reserved key, an object is read exactly if it is admitted, and what
it says is what the settings say. -/
theorem read_iff_admitted (source : Option Text)
    (unreserved : ∀ entries, data = .object entries → Record.reservedKey ∉ Record.keys entries) :
    ((∃ config, ofJson source data = .ok config) ↔ IsAdmitted data) ∧
      ∀ config, ofJson source data = .ok config → ∀ field value, data.find? field = some value →
        config.toJson.find? field = some value := by
  have silent {entries : List (Text × Json)} (same : data = .object entries) :
      keyIssues entries = [] ↔ ∀ key ∈ Record.keys entries, key ∈ fieldNames.map String.toList := by
    rw [key_issues_eq_nil_iff]
    refine forall₂_congr fun key member => or_iff_left ?_
    rintro rfl
    exact unreserved entries same member
  have known {field : String} {value : Json} {entries : List (Text × Json)}
      (keys : ∀ key ∈ Record.keys entries, key ∈ fieldNames.map String.toList)
      (found : (Json.object entries).find? field = some value) : field ∈ fieldNames := by
    obtain ⟨name, listed, same⟩ := List.mem_map.mp (keys _ (mem_keys_of_found found))
    rwa [← String.toList_inj.mp same]
  refine ⟨⟨?_, ?_⟩, ?_⟩
  · rintro ⟨config, read⟩
    obtain ⟨entries, rfl, accepted⟩ := of_json_eq_ok_iff.mp read
    obtain ⟨readFrom, quiet⟩ := of_entries_eq_ok_iff.mp accepted
    have keys := (silent rfl).mp quiet
    exact ⟨entries, rfl, keys, fun field value found =>
      (readFrom.agrees (known keys found) found).2⟩
  · rintro ⟨entries, rfl, keys, follows⟩
    obtain ⟨config, readFrom⟩ := exists_read_from follows
    exact ⟨config, of_json_eq_ok_iff.mpr ⟨entries, rfl,
      of_entries_eq_ok_iff.mpr ⟨readFrom, (silent rfl).mpr keys⟩⟩⟩
  · intro config read field value found
    obtain ⟨entries, rfl, accepted⟩ := of_json_eq_ok_iff.mp read
    obtain ⟨readFrom, quiet⟩ := of_entries_eq_ok_iff.mp accepted
    exact (readFrom.agrees (known ((silent rfl).mp quiet) found) found).1

/-- Settings are read from admitted objects and from nothing else. They keep every
value that is given, read back unchanged from their own object, and take another
language exactly if it is one, which then is all that changes. -/
theorem settings_read_back (source : Option Text) {data : Json}
    (unreserved : ∀ entries, data = .object entries → Record.reservedKey ∉ Record.keys entries) :
    ((∃ config, ofJson source data = .ok config) ↔ IsAdmitted data) ∧
      ∀ config, ofJson source data = .ok config →
        (∃ entries, config.toJson = .object entries ∧
          Record.keys entries = fieldNames.map String.toList) ∧
        (∀ field value, data.find? field = some value →
          config.toJson.find? field = some value) ∧
        (∀ other, ofJson other config.toJson = .ok config) ∧
        ∀ language other,
          (IsLanguageName language →
            config.withLanguage language other = .ok { config with language }) ∧
          (¬IsLanguageName language →
            config.withLanguage language other = .error (.invalid [.badLanguage] other)) := by
  obtain ⟨admitted, agrees⟩ := read_iff_admitted source unreserved
  refine ⟨admitted, fun config read => ⟨⟨_, rfl, rfl⟩, agrees config read, ?_, ?_⟩⟩
  · intro other
    have valid := valid_of_json read
    rw [of_json_to_json valid.toHasTexts, if_pos valid.language]
  · intro language other
    have texts := (valid_of_json read).toHasTexts
    rw [with_language_eq texts]
    exact ⟨fun named => if_pos ((is_language_iff language).mpr named),
      fun unnamed => if_neg (mt (is_language_iff language).mp unnamed)⟩

/-- Keys in any order, a setting that is its default, and a language that is none. -/
theorem settings_read_back_partial :
    let data := Json.object [("haltLevel".toList, .ofString "error"),
      ("language".toList, .ofString "r"), ("inputSuffix".toList, .ofString ".Rmd")]
    let config : Config := { language := "r".toList, haltLevel := .error }
    (∀ entries, data = .object entries → Record.reservedKey ∉ Record.keys entries) ∧
      ofJson none data = .ok config ∧
      config.toJson.find? "haltLevel" = some (.ofString "error") ∧
      ofJson (some "out.json".toList) config.toJson = .ok config ∧
      config.withLanguage "c++".toList none = .error (.invalid [.badLanguage] none) ∧
      config.withLanguage "c_2-x".toList none = .ok { config with language := "c_2-x".toList } := by
  intro data config
  have unreserved : ∀ entries, data = .object entries →
      Record.reservedKey ∉ Record.keys entries := by
    intro entries same
    obtain rfl := Json.object.inj same
    decide
  have read : ofJson none data = .ok config := rfl
  obtain ⟨-, agrees, again, languages⟩ := (settings_read_back none unreserved).2 config read
  have named : IsLanguageName "c_2-x".toList := is_language_iff _ |>.mp (by decide)
  have unnamed : ¬IsLanguageName "c++".toList := mt (is_language_iff _).mpr (by decide)
  exact ⟨unreserved, read, agrees "haltLevel" _ rfl, again _, (languages _ _).2 unnamed,
    (languages _ _).1 named⟩

end LessonBook.Config
