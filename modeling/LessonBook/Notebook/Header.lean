import LessonBook.Notebook.Basic
import LessonBook.Yaml.Library

/-!
The header of a document: YAML between two lines of dashes. Its `jupyter` entry
is the metadata of the notebook; the other entries become a raw cell.
-/

namespace LessonBook

open Text

inductive NotebookFault where
  | unsupportedFormat (name : Text)
  | unsupportedExtension (name extension : Text)
  | header (fault : Yaml.Fault)
  | circular
  deriving Repr

namespace NotebookFault

def message : NotebookFault → Text
  | unsupportedFormat name => "Unsupported notebook format: ".toList ++ name
  | unsupportedExtension name extension =>
      "Unsupported extension for ".toList ++ name ++ ": ".toList ++ extension
  | header .mergeSource => "Merge sources must be maps or map aliases".toList
  | header .repeatedKey => "Ordered maps must not include duplicate keys".toList
  | header .unwritable => "Tag not resolved for Symbol value".toList
  | header .malformed | header .unresolved | header .endless | circular => []

end NotebookFault

namespace Header

def metadataKey : Text := "jupyter".toList

def delimiter : Text := "---".toList

def isDelimiter (line : Text) : Bool :=
  startsWith delimiter line && (line.drop 3).all isSpaceOrTab

def split? (lines : List Text) : Option (List Text × List Text) :=
  match lines with
  | first :: rest =>
      if isDelimiter first && rest.any isDelimiter then
        some (rest.takeWhile (!isDelimiter ·), (rest.dropWhile (!isDelimiter ·)).drop 1)
      else none
  | [] => none

section Reading

variable (yaml : Yaml.Library)

/-- The entries of a value. Bytes have their places as keys; besides them only records
have any. -/
def entriesOf (value : yaml.Value) : Record yaml.Value :=
  match yaml.content value with
  | .record entries => entries
  | .scalar (.bytes values) =>
      values.zipIdx.map fun (value, index) => (Text.ofNat index, yaml.number (.ofNat value))
  | _ => []

def metadataEntries (value : yaml.Value) : Record yaml.Value :=
  let held := Record.find? metadataKey (entriesOf yaml value)
  Record.erase Record.reservedKey ((held.map (entriesOf yaml)).getD [])

def otherEntries (value : yaml.Value) : Record yaml.Value :=
  Record.erase metadataKey (entriesOf yaml value)

def rawSource (text : Text) : Text :=
  delimiter ++ '\n' :: text ++ delimiter

def rawCells (entries : Record yaml.Value) : Except yaml.Fault (List Cell) :=
  if entries.isEmpty then .ok []
  else (yaml.stringify entries).map fun text => [{ kind := .raw, source := rawSource text }]

def readWith (lines : List Text) : Except yaml.Fault (Record yaml.Value × List Cell) := do
  let value ← yaml.parse (joinLines lines)
  let cells ← rawCells yaml (otherEntries yaml value)
  pure (metadataEntries yaml value, cells)

variable {yaml}

theorem raw_cells_cases {entries : Record yaml.Value} {cells : List Cell}
    (written : rawCells yaml entries = .ok cells) :
    (entries = [] ∧ cells = []) ∨ ∃ text, entries ≠ [] ∧ yaml.stringify entries = .ok text ∧
      cells = [{ kind := .raw, source := rawSource text }] := by
  rw [rawCells] at written
  cases entries with
  | nil =>
      cases written
      exact .inl ⟨rfl, rfl⟩
  | cons entry entries =>
      rw [if_neg (by simp)] at written
      cases text : yaml.stringify (entry :: entries) with
      | error fault =>
          rw [text] at written
          cases written
      | ok source =>
          rw [text] at written
          cases written
          exact .inr ⟨source, by simp, rfl, rfl⟩

theorem read_with_eq_ok {lines : List Text} {metadata : Record yaml.Value} {cells : List Cell} :
    readWith yaml lines = .ok (metadata, cells) ↔ ∃ value, yaml.parse (joinLines lines) = .ok value ∧
      rawCells yaml (otherEntries yaml value) = .ok cells ∧
      metadata = metadataEntries yaml value := by
  rw [readWith]
  cases yaml.parse (joinLines lines) with
  | error fault => simp [bind, Except.bind]
  | ok value =>
      cases written : rawCells yaml (otherEntries yaml value) with
      | error fault => simp [bind, Except.bind, written]
      | ok found => simp [bind, Except.bind, pure, Except.pure, written, and_comm, eq_comm]

end Reading

/-! ### Metadata in a file -/

def scalarToJson : Yaml.Scalar → Json
  | .null | .mergeMark => .null
  | .bool value => .bool value
  | .number value => .number value
  | .string value => .string value
  | .bytes values => .bytes values
  | .date time => .string (Yaml.Timestamp.isoText time)

/-- A value as JSON; there is none for a value that contains itself. Sets and ordered
maps have no entries there, and records leave merge marks out. -/
def toJson? (objects : Yaml.Objects) : Nat → Yaml.Value → Option Json
  | 0, _ => none
  | fuel + 1, value =>
      match value.content objects with
      | .scalar value => some (scalarToJson value)
      | .list items => (items.mapM (toJson? objects fuel)).map .array
      | .record entries =>
          (entries.filterMapM fun entry : Text × Yaml.Value =>
            if entry.2.isMergeMark then some none
            else (toJson? objects fuel entry.2).map fun json => some (entry.1, json)).map .object
      | .orderedMap _ | .set _ => some (.object [])

/-- No way into a value passes more objects than there are, unless it contains itself. -/
def metadataToJson? (metadata : Record Yaml.Graph) : Option Metadata :=
  metadata.filterMapM fun entry : Text × Yaml.Graph =>
    let ⟨objects, value⟩ := entry.2
    if value.isMergeMark then some none
    else (toJson? objects (objects.length + 1) value).map fun json => some (entry.1, json)

/-- What the lines of a header give, with metadata that can be stored. -/
def read (lines : List Text) : Except NotebookFault (Metadata × List Cell) :=
  match readWith Yaml.library lines with
  | .error fault => .error (.header fault)
  | .ok (metadata, cells) =>
      match metadataToJson? metadata with
      | some metadata => .ok (metadata, cells)
      | none => .error .circular

end Header

end LessonBook
