import LessonBook.Text.Recognizer

/-!
Headings, by number signs in front or by an underline, and thematic breaks.
-/

namespace LessonBook

open Text Recognizer

namespace ThematicBreak

/-- A line of three or more equal marks, with characters of `filler` between them. -/
def isRule (filler : Char → Bool) (line : Text) : Bool :=
  match line with
  | [] => false
  | mark :: _ =>
      (mark == '-' || mark == '_' || mark == '*') &&
        line.all (fun c => c == mark || filler c) && 3 ≤ line.count mark

def read? (text : Text) : Option Text :=
  let line := indent text
  if isRule isSpaceOrTab (firstLine line) then lineEnds (afterFirstLine line) else none

end ThematicBreak

namespace Heading

def afterSigns? (text : Text) : Option Text :=
  let opened := indent text
  let depth := (opened.takeWhile (· == '#')).length
  let rest := opened.dropWhile (· == '#')
  if 1 ≤ depth && depth ≤ 6 && (rest.head?.map isBlank).getD true then some rest else none

/-- Trims a heading and takes away closing number signs. -/
def content (line : Text) : Text :=
  let text := trim line
  if endsWith ['#'] text then
    let bare := dropEndWhile (· == '#') text
    if bare.isEmpty || endsWith [' '] bare then trim bare else text
  else
    text

def read? (text : Text) : Option (Text × Text) := do
  let line ← afterSigns? text
  if (firstLine line).any isTerminator then none
  some (content (firstLine line), ← lineEnds (afterFirstLine line))

def underline? (text : Text) : Option Text := do
  let line := indent text
  let mark ← line.head?
  if mark != '=' && mark != '-' then none
  lineEnds (skipSpaces (line.dropWhile (· == mark)))

def listMark? (text : Text) : Option Text :=
  match text with
  | [] => none
  | c :: rest =>
      if c == '*' || c == '+' || c == '-' then some rest
      else
        let count := (text.takeWhile Char.isDigit).length
        if 1 ≤ count && count ≤ 9 then
          one (fun d => d == '.' || d == ')') (text.dropWhile Char.isDigit)
        else none

/-- A fence, an indented line, a list mark, a quote, a number sign or a tag on
its own line: nothing of this can stand inside an underlined heading. -/
def opensOtherBlock (text : Text) : Bool :=
  let line := indent text
  ((listMark? text).bind (char ' ')).isSome ||
    startsWith [' ', ' ', ' ', ' '] text ||
    startsWith ['`', '`', '`'] line || startsWith ['~', '~', '~'] line ||
    startsWith ['>'] line || startsWith ['#'] line ||
    match line with
    | '<' :: inside =>
        let rest := inside.dropWhile fun c => c != '>' && c != '\n'
        rest.length < inside.length && startsWith ['>', '\n'] rest
    | _ => false

def startsBlankLine (text : Text) : Bool :=
  startsWith ['\n'] (text.dropWhile fun c => isBlank c && c != '\n')

def underlinedText? : Text → Option (Text × Text)
  | [] => none
  | c :: rest =>
      if c == '\n' then
        match underline? rest with
        | some left => some ([], left)
        | none =>
            if startsBlankLine rest || opensOtherBlock rest then none
            else (underlinedText? rest).map fun (front, left) => (c :: front, left)
      else if isTerminator c then none
      else (underlinedText? rest).map fun (front, left) => (c :: front, left)

def underlined? (text : Text) : Option (Text × Text) :=
  if opensOtherBlock text then none
  else match text with
    | [] => none
    | c :: rest =>
        if isTerminator c then none
        else (underlinedText? rest).map fun (front, left) => (c :: front, left)

end Heading

end LessonBook
