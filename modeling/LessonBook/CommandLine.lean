import LessonBook.Batch
import LessonBook.Manifest

/-!
The command line: reads the arguments and the configuration, converts a
directory, reports what was done, and writes the manifest.
-/

namespace LessonBook

open Text

def usage : Text :=
  ("Usage: lite-notebooks <input_dir> <output_dir> [--config=<file>] [--language=<name>] " ++
    "[--continue-on-error]").toList

structure Arguments where
  inputDirectory : Text
  outputDirectory : Text
  configPath : Option Text := none
  language : Option Text := none
  continueOnError : Bool := false
  deriving Repr, DecidableEq

namespace Arguments

/-- The arguments read so far; those that are no options stand last first. -/
structure Reading where
  positional : List Text := []
  configPath : Option Text := none
  language : Option Text := none
  continueOnError : Bool := false

def configOption : Text := "--config=".toList

def languageOption : Text := "--language=".toList

/-- Reads one argument. A later option of the same kind replaces an earlier one;
unknown options are refused. -/
def read (argument : Text) (reading : Reading) : Option Reading :=
  if argument = "--continue-on-error".toList then some { reading with continueOnError := true }
  else if startsWith configOption argument then
    some { reading with configPath := some (argument.drop configOption.length) }
  else if startsWith languageOption argument then
    some { reading with language := some (argument.drop languageOption.length) }
  else if startsWith ['-', '-'] argument then none
  else some { reading with positional := argument :: reading.positional }

def parse? (arguments : List Text) : Option Arguments := do
  let reading ← arguments.foldlM (fun reading argument => read argument reading) ({} : Reading)
  match reading.positional with
  | [output, input] =>
      some ⟨input, output, reading.configPath, reading.language, reading.continueOnError⟩
  | _ => none

end Arguments

inductive Channel where
  | log
  | warn
  | error
  deriving Repr, DecidableEq

namespace Channel

/-- Warnings and errors go to the error output. -/
def isError : Channel → Bool
  | log => false
  | warn | error => true

end Channel

structure ReportLine where
  channel : Channel
  text : Text
  deriving Repr, DecidableEq

inductive RunError where
  | config (error : ConfigError)
  | badJson (path : FilePath)
  | storage (error : StorageError)
  | document (error : ConversionError)
  deriving Repr

namespace NotebookFault

def errorName : NotebookFault → String
  | unsupportedFormat _ | unsupportedExtension _ _ => "NotebookFormatError"
  | header .malformed => "YAMLParseError"
  | header .unresolved => "ReferenceError"
  | header .endless => "RangeError"
  | header .mergeSource | header .repeatedKey | header .unwritable => "Error"
  | circular => "TypeError"

def describe : NotebookFault → Text
  | header .malformed => "the header is not well formed".toList
  | header .unresolved => "an alias in the header cannot be resolved".toList
  | header .endless => "a map in the header merges itself".toList
  | circular => "a value in the header contains itself".toList
  | fault => fault.message

end NotebookFault

namespace PageError

def name : PageError → String
  | sequencing _ => "MarkerSequencingError"
  | structural _ => "StructuralParseError"
  | notebook fault => fault.errorName

def message : PageError → Text
  | sequencing error => error.message.toList
  | structural error => error.message.toList
  | notebook fault => fault.describe

end PageError

namespace ConversionError

def name : ConversionError → String
  | page error => error.name
  | storage _ => "Error"

def message : ConversionError → Text
  | page error => error.message
  | storage error => error.message

end ConversionError

namespace RunError

def name : RunError → String
  | config _ => "ConfigError"
  | badJson _ => "SyntaxError"
  | storage _ => "Error"
  | document error => error.name

def message : RunError → Text
  | config error => error.message
  | badJson path => path.toText ++ ": not valid JSON".toList
  | storage error => error.message
  | document error => error.message

end RunError

/-- The directory in which a run takes place, and the configuration file that
its surroundings ask for. -/
structure Surroundings where
  directory : FilePath
  configFile : Option Text := none
  deriving Repr

namespace CommandLine

def defaultConfigFile : Text := "lite-notebooks.json".toList

def configVariable : String := "LITE_NOTEBOOKS_CONFIG"

def configLine (channel : Channel) (text : Text) : ReportLine :=
  ⟨channel, "[Config] ".toList ++ text⟩

def processLine (channel : Channel) (text : Text) : ReportLine :=
  ⟨channel, "[Process] ".toList ++ text⟩

/-- A mark at the front of a text that says how it is encoded is no part of it. -/
def withoutMark (text : Text) : Text :=
  match text with
  | '\uFEFF' :: rest => rest
  | _ => text

/-- A file that was asked for has to be there, unless it was asked for by an
empty name; without any file all settings are defaults. -/
def configWithoutFile (requested : Option Text) (path : FilePath) :
    Except RunError Config × List ReportLine :=
  match requested with
  | some (_ :: _) => (.error (.config (.notFound path.toText)), [])
  | _ =>
      ((Config.ofJson none (.object [])).mapError .config,
        [configLine .warn (defaultConfigFile ++ " not found, using defaults".toList)])

def requestedConfig (surroundings : Surroundings) (configPath : Option Text) : Option Text :=
  configPath.orElse fun _ => surroundings.configFile

def configFilePath (surroundings : Surroundings) (configPath : Option Text) : FilePath :=
  FilePath.resolve surroundings.directory
    ((requestedConfig surroundings configPath).getD defaultConfigFile)

def readConfig (surroundings : Surroundings) (configPath : Option Text) (store : FileStore) :
    Except RunError Config × List ReportLine :=
  let requested := requestedConfig surroundings configPath
  let path := configFilePath surroundings configPath
  match store.find? path with
  | none => configWithoutFile requested path
  | some _ =>
      match store.read path with
      | .error error => (.error (.storage error), [])
      | .ok bytes =>
          match Json.ofText? (withoutMark (Utf8.decode bytes)) with
          | none => (.error (.badJson path), [])
          | some data =>
              ((Config.ofJson (some path.toText) data).mapError .config,
                [configLine .log ("Loaded config from ".toList ++ path.toText)])

def effectiveConfig (language : Option Text) (config : Config) : Except RunError Config :=
  match language with
  | none => .ok config
  | some language =>
      (config.withLanguage language (some "--language".toList)).mapError .config

def batchOf (surroundings : Surroundings) (arguments : Arguments) (config : Config) : Batch :=
  { inputDirectory := FilePath.resolve surroundings.directory arguments.inputDirectory
    outputDirectory := FilePath.resolve surroundings.directory arguments.outputDirectory
    inputSuffix := config.inputSuffix
    outputSuffix := config.outputSuffix
    kernel := config.kernel
    onError := if arguments.continueOnError then .continue else config.onError
    haltLevel := config.haltLevel }

def startLine (batch : Batch) : ReportLine :=
  processLine .log ("Converting ".toList ++ batch.inputSuffix ++ " notebooks from ".toList ++
    batch.inputDirectory.toText ++ " to ".toList ++ batch.outputDirectory.toText)

def wroteText (path : FilePath) : Text :=
  "Wrote ".toList ++ path.name

def resultLines (result : BatchResult) : List ReportLine :=
  result.warnings.map (processLine .warn) ++
    result.written.map (fun path => processLine .log (wroteText path)) ++
    result.failures.map fun failure =>
      processLine .error ("Skipped ".toList ++ failure.name ++ ": ".toList ++ failure.error.message)

def manifestLine (path : FilePath) (count : Nat) : ReportLine :=
  processLine .log (wroteText path ++ " (".toList ++ Text.ofNat count ++ " notebooks)".toList)

/-- What a run comes to: its exit code or error, its report, and the files behind it. -/
structure Run where
  result : Except RunError Nat
  report : List ReportLine
  store : FileStore
  deriving Repr

def runWith (surroundings : Surroundings) (arguments : Arguments) (config : Config)
    (store : FileStore) : Run :=
  let batch := batchOf surroundings arguments config
  match batch.run store with
  | (.error error, store) => ⟨.error (.document error), [startLine batch], store⟩
  | (.ok result, store) =>
      let report := startLine batch :: resultLines result
      match Manifest.write batch.outputDirectory config.language store with
      | (.error error, store) => ⟨.error (.storage error), report, store⟩
      | (.ok path, store) =>
          ⟨.ok (if result.failures.isEmpty then 0 else 1),
            report ++ [manifestLine path result.written.length], store⟩

def run (surroundings : Surroundings) (arguments : List Text) (store : FileStore) : Run :=
  match Arguments.parse? arguments with
  | none => ⟨.ok 1, [⟨.error, usage⟩], store⟩
  | some arguments =>
      match readConfig surroundings arguments.configPath store with
      | (.error error, report) => ⟨.error error, report, store⟩
      | (.ok loaded, report) =>
          match effectiveConfig arguments.language loaded with
          | .error error => ⟨.error error, report, store⟩
          | .ok config =>
              let rest := runWith surroundings arguments config store
              { rest with report := report ++ rest.report }

namespace Run

/-- The exit code. A run that ends early fails. -/
def exitCode (run : Run) : Nat :=
  match run.result with
  | .ok code => code
  | .error _ => 1

def fullReport (run : Run) : List ReportLine :=
  match run.result with
  | .ok _ => run.report
  | .error error =>
      run.report ++
        [processLine .error (error.name.toList ++ ": ".toList ++ error.message)]

def outputText (onError : Bool) (run : Run) : Text :=
  (run.fullReport.filter fun line => line.channel.isError = onError).flatMap fun line =>
    line.text ++ ['\n']

end Run

end CommandLine

end LessonBook
