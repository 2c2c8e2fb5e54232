import LessonBook.Text.Recognizer

/-!
Display formulas between double dollar signs, with an optional label in
parentheses, and between `\begin` and `\end` of one environment.
-/

namespace LessonBook

structure Formula where
  text : Text
  label : Option Text
  environment : Option Text
  deriving DecidableEq, Repr

namespace Formula

open Text Recognizer

def label? (endsLine : Text → Bool) (text : Text) : Option (Option Text × Text) :=
  match skipSpacesAndTabs text with
  | '(' :: inside =>
      match inside.dropWhile (fun c => c != ')' && c != '\n') with
      | ')' :: after =>
          let rest := skipSpacesAndTabs after
          if endsLine rest then
            some (some (inside.takeWhile fun c => c != ')' && c != '\n'), rest)
          else none
      | _ => none
  | rest => if endsLine rest then some (none, rest) else none

/-- Reads up to the first pair of dollar signs after which only a label stands on the line. -/
def dollarBody? (endsLine : Text → Bool) : Text → Option (Text × Option Text × Text)
  | [] => none
  | text@(c :: rest) =>
      match (word ['$', '$'] text).bind (label? endsLine) with
      | some (label, left) => some ([], label, left)
      | none => (dollarBody? endsLine rest).map fun (body, found) => (c :: body, found)

def dollar? (endsLine : Text → Bool) (text : Text) : Option (Formula × Text) := do
  let opened ← word ['$', '$'] (indent text)
  let (body, label, rest) ← dollarBody? endsLine opened
  some (⟨trim body, label, none⟩, rest)

def environmentEnd? (endsLine : Text → Bool) (name text : Text) : Option Text := do
  let named ← word ['\\', 'e', 'n', 'd', '\x7b'] text
  let closed ← word name named
  let rest := skipSpacesAndTabs (← char '\x7d' closed)
  if endsLine rest then some rest else none

/-- Reads a formula written as an environment: letters, and perhaps a star, name it. -/
def environment? (endsLine : Text → Bool) (text : Text) : Option (Formula × Text) := do
  let opened ← word ['\\', 'b', 'e', 'g', 'i', 'n', '\x7b'] (indent text)
  let letters := opened.takeWhile Char.isAlpha
  if letters.isEmpty then none
  let afterLetters := opened.dropWhile Char.isAlpha
  let (name, afterName) := match afterLetters with
    | '*' :: rest => (letters ++ ['*'], rest)
    | rest => (letters, rest)
  let inside ← char '\x7d' afterName
  let (body, rest) ← firstMatch (environmentEnd? endsLine name) inside
  some (⟨trim body, none, some name⟩, rest)

end Formula

end LessonBook
