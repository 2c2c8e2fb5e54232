import LessonBook.Exercise.Marker

/-!
The order that markers have to keep: a region starts only outside of all
regions, and only the end of the same kind closes it.
-/

namespace LessonBook

inductive Region where
  | outside
  | inside (kind : RegionKind)
  deriving DecidableEq, Repr

namespace Region

def name : Region → Text
  | outside => "outside".toList
  | inside kind => "inside-".toList ++ kind.name

end Region

inductive SequencingError where
  | misplaced (kind boundary : Text) (line : Nat) (region : Region)
  | unclosed (region : Region)
  deriving DecidableEq, Repr

namespace SequencingError

def marker : SequencingError → Text
  | misplaced kind boundary _ _ => ['\x7b'] ++ kind ++ ['-'] ++ boundary ++ ['\x7d']
  | unclosed _ => "end of document".toList

def region : SequencingError → Region
  | misplaced _ _ _ region => region
  | unclosed region => region

def reason : SequencingError → String
  | misplaced _ boundary line _ =>
      (if boundary = Boundary.start.name then "start marker while a region is already open"
        else "end marker without an open region") ++ " (line " ++ toString (line + 1) ++ ")"
  | unclosed _ => "region not closed at end of document"

def message (error : SequencingError) : String :=
  error.reason ++ ": marker " ++ String.ofList error.marker ++ " in state " ++
    String.ofList error.region.name

end SequencingError

namespace Region

/-- The region behind a marker with the given names, if the marker may stand here. -/
def next? (region : Region) (kind boundary : Text) : Option Region :=
  match region with
  | outside =>
      if boundary = Boundary.start.name then
        if kind = RegionKind.exercise.name then some (inside .exercise)
        else if kind = RegionKind.solution.name then some (inside .solution)
        else none
      else none
  | inside opened =>
      if boundary = Boundary.finish.name && kind = opened.name then some outside else none

def advance (region : Region) (kind boundary : Text) (line : Nat) : Except SequencingError Region :=
  match region.next? kind boundary with
  | some next => .ok next
  | none => .error (.misplaced kind boundary line region)

def finish (region : Region) : Except SequencingError Unit :=
  match region with
  | outside => .ok ()
  | inside _ => .error (.unclosed region)

def advanceAll (region : Region) : List Marker → Except SequencingError Region
  | [] => .ok region
  | marker :: markers => do
      let next ← region.advance marker.kind.name marker.boundary.name marker.line
      advanceAll next markers

end Region

end LessonBook
