import LessonBook.Markup.Block.Directive
import LessonBook.Markup.Block.Fields

/-!
Markers of exercises and solutions: fenced lines such as `{exercise-start}`,
with attribute lines and a closing fence directly below. A page is a sequence of
such markers and of plain characters between them.
-/

namespace LessonBook

inductive RegionKind where
  | exercise
  | solution
  deriving DecidableEq, Repr

namespace RegionKind

def name : RegionKind → Text
  | exercise => "exercise".toList
  | solution => "solution".toList

end RegionKind

inductive Boundary where
  | start
  | finish
  deriving DecidableEq, Repr

namespace Boundary

def name : Boundary → Text
  | start => "start".toList
  | finish => "end".toList

end Boundary

structure Marker where
  kind : RegionKind
  boundary : Boundary
  suffix : Text
  attributes : Record Text
  /-- The line of the marker, counted from zero. -/
  line : Nat
  deriving DecidableEq, Repr

namespace Marker

open Text Recognizer

def kind? (text : Text) : Option (RegionKind × Text) :=
  ((word RegionKind.exercise.name text).map fun rest => (.exercise, rest)).or
    ((word RegionKind.solution.name text).map fun rest => (.solution, rest))

def boundary? (text : Text) : Option (Boundary × Text) :=
  ((word Boundary.start.name text).map fun rest => (.start, rest)).or
    ((word Boundary.finish.name text).map fun rest => (.finish, rest))

structure Opening where
  mark : Char
  kind : RegionKind
  boundary : Boundary
  suffix : Text
  deriving DecidableEq, Repr

/-- Reads a marker line with its newline: at most three blanks, three or more
equal fence characters, the tag in braces, and the rest of the line. -/
def opening? (text : Text) : Option (Opening × Text) := do
  let fenced := skipUpTo isSpaceOrTab 3 text
  let mark ← fenced.head?
  if !Directive.isFenceMark mark || (fenced.takeWhile (· == mark)).length < 3 then none
  let tag ← char '\x7b' (skipSpacesAndTabs (fenced.dropWhile (· == mark)))
  let (kind, afterKind) ← kind? tag
  let (boundary, afterBoundary) ← boundary? (← char '-' afterKind)
  let suffix ← char '\x7d' afterBoundary
  some (⟨mark, kind, boundary, firstLine suffix⟩, ← lineEnd (afterFirstLine suffix))

def attributeKey? (text : Text) : Option (Text × Text) := do
  let named ← char ':' (skipSpacesAndTabs text)
  let key := named.takeWhile FieldList.isKeyChar
  if key.isEmpty then none
  some (key, ← char ':' (named.dropWhile FieldList.isKeyChar))

def attributeLine? (text : Text) : Option Text := do
  let (_, rest) ← attributeKey? text
  lineEnd (afterFirstLine rest)

/-- The attribute of a line. A value that is cut by a line terminator is none. -/
def attribute? (line : Text) : Option (Text × Text) := do
  let (key, rest) ← attributeKey? line
  let value := skipSpacesAndTabs rest
  if value.any isTerminator then none
  some (key, trim value)

/-- Reads a closing fence of the same character, up to a newline, which it
takes, or up to another line terminator, which it leaves. -/
def closing? (mark : Char) (text : Text) : Option Text :=
  let fence := skipSpacesAndTabs text
  let rest := skipSpacesAndTabs (fence.dropWhile (· == mark))
  if (fence.takeWhile (· == mark)).length < 3 then none
  else match rest with
    | [] => some []
    | c :: after => if c == '\n' then some after else if isTerminator c then some rest else none

/-- The attributes in a block of lines; of two values for one key the last counts. -/
def attributesOf (block : Text) : Record Text :=
  ((lines block).filterMap attribute?).foldl
    (fun record entry => Record.assign entry.1 entry.2 record) []

/-- Reads a marker on the given line: its opening line, its attribute lines and
a closing fence, if they are there. -/
def read? (line : Nat) (text : Text) : Option (Marker × Text) := do
  let (opening, below) ← opening? text
  let afterAttributes := many attributeLine? below
  let rest := (closing? opening.mark afterAttributes).getD afterAttributes
  some (⟨opening.kind, opening.boundary, trim opening.suffix,
    attributesOf (before below afterAttributes), line⟩, rest)

end Marker

/-- A page is made of plain characters and of markers; a marker tells whether
the text it was read from ends with a newline. -/
inductive Piece where
  | plain (c : Char)
  | marker (marker : Marker) (endsLine : Bool)
  deriving DecidableEq, Repr

namespace Piece

open Text

/-- Cuts a page into its pieces. `skipped` characters still belong to the last
marker, `line` counts the newlines so far, and a marker is read where a line starts. -/
def scan (skipped line : Nat) (atStart : Bool) : Text → List Piece
  | [] => []
  | text@(c :: rest) =>
      let next := if c == '\n' then line + 1 else line
      match skipped with
      | count + 1 => scan count next (isTerminator c) rest
      | 0 =>
          match if atStart then Marker.read? line text else none with
          | some (found, left) =>
              .marker found (endsWith ['\n'] (before text left)) ::
                scan (text.length - left.length - 1) next (isTerminator c) rest
          | none => .plain c :: scan 0 next (isTerminator c) rest

def ofText (page : Text) : List Piece :=
  scan 0 0 true page

def marker? : Piece → Option Marker
  | plain _ => none
  | marker found _ => some found

end Piece

def Marker.scan (page : Text) : List Marker :=
  (Piece.ofText page).filterMap Piece.marker?

end LessonBook
