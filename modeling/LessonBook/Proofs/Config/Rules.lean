import LessonBook.Config

/-!
The rules of settings. Whatever is read satisfies them, and what satisfies them
reads back from its own object; so the language can be set anew by its rule alone.
-/

namespace LessonBook.Config

open Text

structure HasTexts (config : Config) : Prop where
  kernelName : config.kernelName ≠ []
  kernelDisplayName : config.kernelDisplayName ≠ []
  inputSuffix : config.inputSuffix ≠ []
  outputSuffix : config.outputSuffix ≠ []

structure IsValid (config : Config) : Prop extends HasTexts config where
  language : isLanguage config.language = true

theorem not_empty_eq_none {field : String} {value : Text} :
    notEmpty field value = none ↔ value ≠ [] := by
  cases value <;> simp [notEmpty]

theorem language_issue_eq_none {value : Text} :
    languageIssue value = none ↔ isLanguage value = true := by
  rw [languageIssue]
  split <;> simp_all

theorem text_field_eq_ok {field : String} {default value : Text}
    {check : Text → Option ConfigIssue} {data : Json} (standard : check default = none)
    (read : textField field default check data = .ok value) : check value = none := by
  rw [textField] at read
  split at read
  · cases read
    exact standard
  · split at read
    · cases read
    · rename_i passed
      cases read
      exact passed
  · cases read

theorem text_field_of_found (field : String) {default value : Text}
    {check : Text → Option ConfigIssue} {data : Json}
    (found : data.find? field = some (.string value)) :
    textField field default check data =
      match check value with
      | some issue => .error issue
      | none => .ok value := by
  cases accepted : check value with
  | none => simp only [textField, found, accepted]
  | some issue => simp only [textField, found, accepted]

theorem option_field_of_found {Value : Type} (field : String) {default value : Value}
    {ofName? : String → Option Value} {names : List String} {data : Json} {name : String}
    (found : data.find? field = some (.ofString name)) (named : ofName? name = some value) :
    optionField field default ofName? names data = .ok value := by
  rw [optionField, found, Json.ofString]
  simp only [String.ofList_toList, named]

theorem valid_of_entries {entries : List (Text × Json)} {config : Config}
    (read : ofEntries entries = .ok config) : config.IsValid := by
  simp only [ofEntries] at read
  split at read
  · rename_i kernelName kernelDisplayName inputSuffix outputSuffix language onError haltLevel _
    cases read
    exact {
      kernelName := not_empty_eq_none.mp (text_field_eq_ok rfl kernelName)
      kernelDisplayName := not_empty_eq_none.mp (text_field_eq_ok rfl kernelDisplayName)
      inputSuffix := not_empty_eq_none.mp (text_field_eq_ok rfl inputSuffix)
      outputSuffix := not_empty_eq_none.mp (text_field_eq_ok rfl outputSuffix)
      language := language_issue_eq_none.mp (text_field_eq_ok rfl language) }
  · cases read

theorem valid_of_json {source : Option Text} {data : Json} {config : Config}
    (read : ofJson source data = .ok config) : config.IsValid := by
  cases data with
  | object entries =>
      cases accepted : ofEntries entries with
      | error issues =>
          simp only [ofJson, accepted] at read
          cases read
      | ok result =>
          simp only [ofJson, accepted] at read
          cases read
          exact valid_of_entries accepted
  | _ => cases read

theorem valid_of_defaults : IsValid {} := by
  have read : ofJson none (.object []) = .ok {} := rfl
  exact valid_of_json read

theorem of_name_policy (policy : FailurePolicy) :
    FailurePolicy.ofName? policy.name = some policy := by
  cases policy <;> decide

theorem of_name_severity (severity : Severity) :
    Severity.ofName? severity.name = some severity := by
  cases severity <;> decide

/-- Settings read back from their object if their language satisfies its rule, and
else only that is wrong. -/
theorem of_json_to_json {config : Config} (texts : config.HasTexts) (source : Option Text) :
    ofJson source config.toJson =
      if isLanguage config.language = true then .ok config
      else .error (.invalid [.badLanguage] source) := by
  have keys : keyIssues config.entries = [] := rfl
  unfold ofJson toJson
  simp only [ofEntries]
  rw [keys, text_field_of_found "kernelName" rfl,
    text_field_of_found "kernelDisplayName" rfl,
    text_field_of_found "inputSuffix" rfl,
    text_field_of_found "outputSuffix" rfl,
    text_field_of_found "language" rfl,
    option_field_of_found "onError" rfl (of_name_policy _),
    option_field_of_found "haltLevel" rfl (of_name_severity _),
    not_empty_eq_none.mpr texts.kernelName, not_empty_eq_none.mpr texts.kernelDisplayName,
    not_empty_eq_none.mpr texts.inputSuffix, not_empty_eq_none.mpr texts.outputSuffix,
    languageIssue]
  by_cases accepted : isLanguage config.language = true
  · rw [if_pos accepted, if_pos accepted]
  · rw [if_neg accepted, if_neg accepted]
    rfl

/-- Another language is accepted by its own rule, and changes nothing else. -/
theorem with_language_eq {config : Config} (texts : config.HasTexts) (language : Text)
    (source : Option Text) :
    config.withLanguage language source =
      if isLanguage language = true then .ok { config with language }
      else .error (.invalid [.badLanguage] source) :=
  have kept : HasTexts { config with language } :=
    ⟨texts.kernelName, texts.kernelDisplayName, texts.inputSuffix, texts.outputSuffix⟩
  of_json_to_json kept source

end LessonBook.Config
