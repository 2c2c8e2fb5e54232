import LessonBook.Json.Printer
import LessonBook.Notebook.Basic

/-!
Writes notebooks as JSON files. The source of a cell is stored line by line,
and code cells have a place for their outputs.
-/

namespace LessonBook

open Text

namespace Notebook

def withLineEnds : List Text → List Text
  | [] => []
  | [last] => [last]
  | line :: rest => (line ++ ['\n']) :: withLineEnds rest

def storedLines (source : Text) : List Text :=
  (withLineEnds (lines source)).filter (!·.isEmpty)

def entry (key : String) (value : Json) : Text × Json :=
  (key.toList, value)

def cellToJson (cell : Cell) : Json :=
  let type := entry "cell_type" (.string cell.kind.name)
  let metadata := entry "metadata" (.object cell.metadata)
  let source := entry "source" (.array ((storedLines cell.source).map .string))
  if cell.kind = .code then
    .object [type, entry "execution_count" .null, metadata, entry "outputs" (.array []), source]
  else .object [type, metadata, source]

def toJson (notebook : Notebook) : Json :=
  .object [entry "cells" (.array (notebook.cells.map cellToJson)),
    entry "metadata" (.object notebook.metadata), entry "nbformat" (.number notebook.format),
    entry "nbformat_minor" (.number notebook.minorFormat)]

def toText (notebook : Notebook) : Text :=
  Json.pretty 1 notebook.toJson ++ ['\n']

end Notebook

end LessonBook
