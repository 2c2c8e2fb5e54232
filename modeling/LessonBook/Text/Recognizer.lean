import LessonBook.Text.Basic

/-!
Recognizers read a piece at the front of a text and answer with what is left,
or with `none` when the piece is not there.
-/

namespace LessonBook

abbrev Recognizer := Text → Option Text

namespace Recognizer

open Text

def one (inClass : Char → Bool) : Recognizer
  | [] => none
  | c :: rest => if inClass c then some rest else none

def char (wanted : Char) : Recognizer :=
  one (· == wanted)

def word : Text → Recognizer
  | [], text => some text
  | _ :: _, [] => none
  | w :: ws, c :: rest => if w == c then word ws rest else none

def wordAnyCase : Text → Recognizer
  | [], text => some text
  | _ :: _, [] => none
  | w :: ws, c :: rest => if w.toLower == c.toLower then wordAnyCase ws rest else none

def skipUpTo (inClass : Char → Bool) : Nat → Text → Text
  | 0, text => text
  | _, [] => []
  | count + 1, text@(c :: rest) => if inClass c then skipUpTo inClass count rest else text

/-- The up to three spaces that may stand in front of a block. -/
def indent (text : Text) : Text :=
  skipUpTo (· == ' ') 3 text

def skipSpaces (text : Text) : Text :=
  text.dropWhile (· == ' ')

def skipSpacesAndTabs (text : Text) : Text :=
  text.dropWhile isSpaceOrTab

def skipBlanks (text : Text) : Text :=
  text.dropWhile isBlank

def skipNewlines (text : Text) : Text :=
  text.dropWhile (· == '\n')

def some1 (inClass : Char → Bool) (text : Text) : Option Text :=
  (one inClass text).map (List.dropWhile inClass)

def atLineEnd : Text → Bool
  | [] => true
  | c :: _ => c == '\n'

def lineEnd : Recognizer
  | [] => some []
  | c :: rest => if c == '\n' then some rest else none

/-- All newlines up to the next other character, and at least one, or the end of the text. -/
def lineEnds : Recognizer
  | [] => some []
  | c :: rest => if c == '\n' then some (skipNewlines rest) else none

def orElse (first second : Recognizer) : Recognizer := fun text =>
  match first text with
  | some rest => some rest
  | none => second text

def repeatUpTo (step : Recognizer) : Nat → Text → Text
  | 0, text => text
  | count + 1, text =>
      match step text with
      | some rest => repeatUpTo step count rest
      | none => text

/-- Applies the recognizer as often as it succeeds. Each success has to take a
character, so the length of the text bounds the repetitions. -/
def many (step : Recognizer) (text : Text) : Text :=
  repeatUpTo step text.length text

def spaceLinesFrom (lineStart : Text) : Text → Text
  | [] => []
  | c :: rest =>
      if c == ' ' then spaceLinesFrom lineStart rest
      else if c == '\n' then spaceLinesFrom rest rest
      else lineStart

def skipSpaceLines (text : Text) : Text :=
  spaceLinesFrom text text

/-- The part in front of the first place where the recognizer succeeds, and what it leaves there. -/
def firstMatch (step : Recognizer) : Text → Option (Text × Text)
  | [] => (step []).map fun rest => ([], rest)
  | text@(c :: rest) =>
      match step text with
      | some left => some ([], left)
      | none => (firstMatch step rest).map fun (front, left) => (c :: front, left)

/-- What the recognizer leaves at the first place where it succeeds; nothing
if it succeeds nowhere. -/
def throughFirst (step : Recognizer) (text : Text) : Text :=
  match firstMatch step text with
  | some (_, rest) => rest
  | none => []

end Recognizer

end LessonBook
