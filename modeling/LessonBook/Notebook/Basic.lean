import LessonBook.Json.Value

/-!
Notebooks: cells of text and code in their order, and metadata for the whole and
for each cell.
-/

namespace LessonBook

/-- The kind of a cell. The file format leaves room for kinds beyond the three
that documents give rise to. -/
inductive CellKind where
  | markdown
  | code
  | raw
  | other (name : Text)
  deriving Repr, DecidableEq

namespace CellKind

def name : CellKind → Text
  | markdown => "markdown".toList
  | code => "code".toList
  | raw => "raw".toList
  | other name => name

end CellKind

abbrev Metadata := Record Json

structure Cell where
  kind : CellKind
  source : Text
  metadata : Metadata := []
  deriving Repr

/-- The metadata of a notebook are JSON, unless they are still values of another kind. -/
structure Notebook (Value : Type := Json) where
  cells : List Cell
  metadata : Record Value := []
  format : Binary64 := .ofNat 4
  minorFormat : Binary64 := .ofNat 4
  deriving Repr

def Cell.ofLines (kind : CellKind) (lines : List Text) (metadata : Metadata) : Cell :=
  ⟨kind, Text.joinLines lines, metadata⟩

end LessonBook
