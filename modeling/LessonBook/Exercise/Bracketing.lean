import LessonBook.Exercise.Sequence
import LessonBook.Text.Recognizer

/-!
Exercises as plain text: their markers become bracketing lines, and every
solution, with all that stands in it, one line that points to the page.
-/

namespace LessonBook

namespace ExerciseBracketing

open Text Recognizer

def exerciseStart : Text := "**Start of exercise**".toList

def exerciseEnd : Text := "**End of exercise**".toList

def solutionStart : Text := "<!-- start-solution -->".toList

def solutionEnd : Text := "<!-- end-solution -->".toList

def placeholder : Text := "**See page for solution**".toList

def replacement : RegionKind → Boundary → Text
  | .exercise, .start => exerciseStart
  | .exercise, .finish => exerciseEnd
  | .solution, .start => solutionStart
  | .solution, .finish => solutionEnd

def render : Piece → Text
  | .plain c => [c]
  | .marker marker endsLine =>
      replacement marker.kind marker.boundary ++ if endsLine then ['\n'] else []

/-- Checks that the markers fit together, and puts plain text for each. -/
def bracket (page : Text) : Except SequencingError Text := do
  let pieces := Piece.ofText page
  let region ← Region.outside.advanceAll (pieces.filterMap Piece.marker?)
  region.finish
  .ok (pieces.flatMap render)

/-- A solution between its comments, up to the first closing one. -/
def solution? (text : Text) : Option Text := do
  let inside ← word solutionStart text
  (firstMatch (word solutionEnd) inside).map Prod.snd

/-- Puts the placeholder for every solution; `skipped` characters still belong to the last one. -/
def collapseFrom (skipped : Nat) : Text → Text
  | [] => []
  | text@(c :: rest) =>
      match skipped with
      | count + 1 => collapseFrom count rest
      | 0 =>
          match solution? text with
          | some left => placeholder ++ collapseFrom (text.length - left.length - 1) rest
          | none => c :: collapseFrom 0 rest

def collapse (text : Text) : Text :=
  collapseFrom 0 text

end ExerciseBracketing

/-- Brackets the exercises of a page and hides its solutions. -/
def bracketExercises (page : Text) : Except SequencingError Text := do
  let bracketed ← ExerciseBracketing.bracket page
  .ok (ExerciseBracketing.collapse bracketed)

end LessonBook
