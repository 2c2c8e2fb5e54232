import LessonBook.Text.Recognizer

/-!
Code blocks, either indented by four spaces or between fence lines.
-/

namespace LessonBook

open Text Recognizer

namespace IndentedCode

/-- A line behind four spaces, and the space lines after it. -/
def line? (text : Text) : Option Text := do
  let written ← one notNewline (← word [' ', ' ', ' ', ' '] text)
  match afterFirstLine written with
  | [] => some []
  | _ :: rest => some (skipSpaceLines rest)

def content (raw : Text) : Text :=
  dropEndWhile (· == '\n')
    (cutLineStarts (fun line => ((line.take 4).takeWhile (· == ' ')).length) 0 true raw)

def read? (text : Text) : Option (Text × Text) := do
  let rest := many line? (← line? text)
  some (content (before text rest), rest)

end IndentedCode

namespace FencedCode

structure Opening where
  indentation : Nat
  mark : Char
  count : Nat
  deriving DecidableEq, Repr

/-- Three or more backticks with none after them on the line, or three or more tildes. -/
def opening? (text : Text) : Option (Opening × Text) := do
  let fenced := indent text
  let mark ← fenced.head?
  if mark != '`' && mark != '~' then none
  let count := (fenced.takeWhile (· == mark)).length
  let info := fenced.dropWhile (· == mark)
  if count < 3 || (mark == '`' && (firstLine info).contains '`') then none
  some (⟨text.length - fenced.length, mark, count⟩, ← lineEnd (afterFirstLine info))

/-- A closing fence is at least as long as the opening one. -/
def closing? (opening : Opening) (text : Text) : Option Text := do
  let run ← word (List.replicate opening.count opening.mark) (indent text)
  let rest := skipSpaces (run.dropWhile fun c => c == '`' || c == '~')
  if atLineEnd rest then some rest else none

def body (closing : Recognizer) : Text → Text × Text
  | [] => ([], [])
  | c :: rest =>
      if c == '\n' then
        if rest.isEmpty then ([], [])
        else match closing rest with
          | some left => ([], left)
          | none =>
              let (code, left) := body closing rest
              (c :: code, left)
      else
        let (code, left) := body closing rest
        (c :: code, left)

def unindent (indentation : Nat) (line : Text) : Text :=
  if indentation ≤ (line.takeWhile isBlank).length then line.drop indentation else line

def content (opening : Opening) (code : Text) : Text :=
  if opening.mark == '`' && 0 < opening.indentation then
    joinLines ((lines code).map (unindent opening.indentation))
  else
    code

def read? (text : Text) : Option (Text × Text) := do
  let (opening, inside) ← opening? text
  match closing? opening inside with
  | some rest => some ([], rest)
  | none =>
      let (code, rest) := body (closing? opening) inside
      some (content opening code, rest)

end FencedCode

end LessonBook
