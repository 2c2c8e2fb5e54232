import LessonBook.Json.Reader
import LessonBook.Markup.Diagnostic
import LessonBook.Page

/-!
The settings of the converter, read from an object. Every setting has a default;
each one that is present has to satisfy its rule, and no other key is admitted.
-/

namespace LessonBook

open Text

inductive FailurePolicy where
  | abort
  | continue
  deriving DecidableEq, Repr

namespace FailurePolicy

def name : FailurePolicy → String
  | abort => "abort"
  | .continue => "continue"

def all : List FailurePolicy := [abort, .continue]

def ofName? (wanted : String) : Option FailurePolicy :=
  all.find? fun policy => policy.name == wanted

end FailurePolicy

def defaultLanguage : Text := "python".toList

structure Config where
  kernelName : Text := "python".toList
  kernelDisplayName : Text := "Python (Pyodide)".toList
  inputSuffix : Text := ".Rmd".toList
  outputSuffix : Text := ".ipynb".toList
  language : Text := defaultLanguage
  onError : FailurePolicy := .abort
  haltLevel : Severity := .severe
  deriving DecidableEq, Repr

inductive ConfigIssue where
  | notText (field : String) (kind : String)
  | empty (field : String)
  | badLanguage
  | noOption (field : String) (options : List String)
  | notObject (kind : String)
  | unknownKeys (keys : List Text)
  deriving DecidableEq, Repr

namespace ConfigIssue

def quoted (text : Text) : Text :=
  ['"'] ++ text ++ ['"']

def message : ConfigIssue → Text
  | notText field kind =>
      (field ++ ": Invalid input: expected string, received " ++ kind).toList
  | empty field => (field ++ ": Too small: expected string to have >=1 characters").toList
  | badLanguage => "language: Invalid string: must match pattern /^[\\w-]+$/".toList
  | noOption field options =>
      (field ++ ": Invalid option: expected one of ").toList ++
        intercalate ['|'] (options.map fun option => quoted option.toList)
  | notObject kind => ("(root): Invalid input: expected object, received " ++ kind).toList
  | unknownKeys keys =>
      (if keys.length = 1 then "(root): Unrecognized key: ".toList
        else "(root): Unrecognized keys: ".toList) ++ intercalate [',', ' '] (keys.map quoted)

end ConfigIssue

/-- Why there is no configuration. The source is what the settings came from. -/
inductive ConfigError where
  | invalid (issues : List ConfigIssue) (source : Option Text)
  | notFound (source : Text)
  deriving DecidableEq, Repr

namespace ConfigError

def source : ConfigError → Option Text
  | invalid _ source => source
  | notFound source => some source

def detail : ConfigError → Text
  | invalid issues _ => intercalate [';', ' '] (issues.map ConfigIssue.message)
  | notFound _ => "config file not found".toList

/-- A source that is not empty stands in front of the message. -/
def message (error : ConfigError) : Text :=
  match error.source with
  | some (c :: rest) => c :: rest ++ ": ".toList ++ error.detail
  | _ => error.detail

end ConfigError

namespace Config

abbrev Field (Value : Type) := Except ConfigIssue Value

/-- A text that satisfies a test, or the default when the key is absent. -/
def textField (field : String) (default : Text) (check : Text → Option ConfigIssue) (data : Json) :
    Field Text :=
  match data.find? field with
  | none => .ok default
  | some (.string value) =>
      match check value with
      | some issue => .error issue
      | none => .ok value
  | some other => .error (.notText field other.kind)

def notEmpty (field : String) (value : Text) : Option ConfigIssue :=
  if value.isEmpty then some (.empty field) else none

def isLanguage (value : Text) : Bool :=
  !value.isEmpty && value.all fun c => isWordChar c || c == '-'

def languageIssue (value : Text) : Option ConfigIssue :=
  if isLanguage value then none else some .badLanguage

/-- One of the names of a list, or the default when the key is absent. -/
def optionField {Value : Type} (field : String) (default : Value) (ofName? : String → Option Value)
    (names : List String) (data : Json) : Field Value :=
  match data.find? field with
  | none => .ok default
  | some (.string name) =>
      match ofName? (String.ofList name) with
      | some value => .ok value
      | none => .error (.noOption field names)
  | some _ => .error (.noOption field names)

def issueOf {Value : Type} : Field Value → List ConfigIssue
  | .ok _ => []
  | .error issue => [issue]

def fieldNames : List String :=
  ["kernelName", "kernelDisplayName", "inputSuffix", "outputSuffix", "language", "onError",
    "haltLevel"]

/-- The keys that name no setting, in the order of keys. The reserved key is passed over. -/
def unknownKeys (entries : List (Text × Json)) : List Text :=
  (Record.keys (Record.inKeyOrder entries)).filter fun key =>
    !(fieldNames.map String.toList).contains key && key ≠ Record.reservedKey

def keyIssues (entries : List (Text × Json)) : List ConfigIssue :=
  match unknownKeys entries with
  | [] => []
  | keys => [.unknownKeys keys]

def ofEntries (entries : List (Text × Json)) : Except (List ConfigIssue) Config :=
  let data := Json.object entries
  let standard : Config := {}
  let kernelName := textField "kernelName" standard.kernelName (notEmpty "kernelName") data
  let kernelDisplayName := textField "kernelDisplayName" standard.kernelDisplayName
    (notEmpty "kernelDisplayName") data
  let inputSuffix := textField "inputSuffix" standard.inputSuffix (notEmpty "inputSuffix") data
  let outputSuffix := textField "outputSuffix" standard.outputSuffix (notEmpty "outputSuffix") data
  let language := textField "language" standard.language languageIssue data
  let onError := optionField "onError" standard.onError FailurePolicy.ofName?
    (FailurePolicy.all.map FailurePolicy.name) data
  let haltLevel := optionField "haltLevel" standard.haltLevel Severity.ofName?
    (Severity.all.map Severity.name) data
  match kernelName, kernelDisplayName, inputSuffix, outputSuffix, language, onError, haltLevel,
      keyIssues entries with
  | .ok kernelName, .ok kernelDisplayName, .ok inputSuffix, .ok outputSuffix, .ok language,
      .ok onError, .ok haltLevel, [] =>
      .ok { kernelName, kernelDisplayName, inputSuffix, outputSuffix, language, onError, haltLevel }
  | _, _, _, _, _, _, _, _ =>
      .error (issueOf kernelName ++ issueOf kernelDisplayName ++ issueOf inputSuffix ++
        issueOf outputSuffix ++ issueOf language ++ issueOf onError ++ issueOf haltLevel ++
        keyIssues entries)

def ofJson (source : Option Text) (data : Json) : Except ConfigError Config :=
  let result := match data with
    | .object entries => ofEntries entries
    | other => .error [.notObject other.kind]
  match result with
  | .ok config => .ok config
  | .error issues => .error (.invalid issues source)

def entries (config : Config) : Record Json :=
  [("kernelName".toList, .string config.kernelName),
    ("kernelDisplayName".toList, .string config.kernelDisplayName),
    ("inputSuffix".toList, .string config.inputSuffix),
    ("outputSuffix".toList, .string config.outputSuffix),
    ("language".toList, .string config.language),
    ("onError".toList, .ofString config.onError.name),
    ("haltLevel".toList, .ofString config.haltLevel.name)]

def toJson (config : Config) : Json :=
  .object config.entries

def kernel (config : Config) : Kernel :=
  ⟨config.kernelName, config.kernelDisplayName⟩

/-- The configuration with another language, which has to satisfy its rule. -/
def withLanguage (language : Text) (source : Option Text) (config : Config) :
    Except ConfigError Config :=
  ofJson source (.object (Record.put "language".toList (.string language) config.entries))

end Config

end LessonBook
