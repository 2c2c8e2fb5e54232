import LessonBook.Config
import LessonBook.Files.Store

/-!
Converts the pages in a directory. Each page is read, made into a notebook and
written on its own; what happens after a failure is the policy's decision.
-/

namespace LessonBook

open Text

inductive ConversionError where
  | page (error : PageError)
  | storage (error : StorageError)
  deriving Repr

structure PageFailure where
  name : Text
  error : ConversionError
  deriving Repr

structure Batch where
  inputDirectory : FilePath
  outputDirectory : FilePath
  inputSuffix : Text := ".Rmd".toList
  outputSuffix : Text := ".ipynb".toList
  kernel : Kernel := {}
  onError : FailurePolicy := .abort
  haltLevel : Severity := .severe
  deriving Repr

structure BatchResult where
  written : List FilePath := []
  failures : List PageFailure := []
  warnings : List Text := []
  deriving Repr

namespace Batch

def reading (batch : Batch) : Reading :=
  { extensions := Extension.all, halt := batch.haltLevel }

/-- The name without the suffix. Without a suffix nothing of it is left. -/
def stem (suffix name : Text) : Text :=
  if suffix.isEmpty then [] else name.take (name.length - suffix.length)

def outputPath (batch : Batch) (name : Text) : FilePath :=
  FilePath.join batch.outputDirectory (stem batch.inputSuffix name ++ batch.outputSuffix)

def warning (name : Text) (diagnostic : Diagnostic) : Text :=
  name ++ ": line ".toList ++ Text.ofNat diagnostic.line ++ ": ".toList ++
    diagnostic.problem.message.toList

def warningsFor (batch : Batch) (name content : Text) : List Text :=
  (Page.diagnostics batch.reading content).map (warning name)

def fileText (batch : Batch) (content : Text) : Except PageError Text :=
  match Page.toNotebook batch.reading batch.kernel content with
  | .ok notebook => .ok notebook.toText
  | .error error => .error error

def convert (batch : Batch) (name content : Text) (store : FileStore) :
    FileStore.Outcome ConversionError FilePath :=
  match batch.fileText content with
  | .error error => (.error (.page error), store)
  | .ok text =>
      let path := batch.outputPath name
      match store.output path (Utf8.encode text) with
      | (.error error, store) => (.error (.storage error), store)
      | (.ok _, store) => (.ok path, store)

def record (name : Text) (outcome : Except ConversionError FilePath) (result : BatchResult) :
    BatchResult :=
  match outcome with
  | .ok path => { result with written := result.written ++ [path] }
  | .error error => { result with failures := result.failures ++ [⟨name, error⟩] }

def convertAll (batch : Batch) (result : BatchResult) (store : FileStore) :
    List Text → FileStore.Outcome ConversionError BatchResult
  | [] => (.ok result, store)
  | name :: rest =>
      match store.read (batch.inputDirectory ++ [name]) with
      | .error error =>
          match batch.onError with
          | .abort => (.error (.storage error), store)
          | .continue => convertAll batch (record name (.error (.storage error)) result) store rest
      | .ok bytes =>
          let content := Utf8.decode bytes
          let warned := { result with warnings := result.warnings ++ batch.warningsFor name content }
          match batch.convert name content store, batch.onError with
          | (.error error, store), .abort => (.error error, store)
          | (outcome, store), _ => convertAll batch (record name outcome warned) store rest

def sources (batch : Batch) (store : FileStore) : Except StorageError (List Text) :=
  match store.list batch.inputDirectory with
  | .ok names => .ok (names.filter (endsWith batch.inputSuffix))
  | .error error => .error error

/-- Converts all pages. The output directory is made when the input directory
can be listed. -/
def run (batch : Batch) (store : FileStore) : FileStore.Outcome ConversionError BatchResult :=
  match batch.sources store with
  | .error error => (.error (.storage error), store)
  | .ok names =>
      match store.makeDirectory batch.outputDirectory with
      | .error error => (.error (.storage error), store)
      | .ok made => convertAll batch {} made names

end Batch

end LessonBook
