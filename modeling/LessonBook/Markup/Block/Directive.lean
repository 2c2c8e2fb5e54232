import LessonBook.Text.Recognizer

/-!
Fenced directives: an opening line such as `:::{note} Title`, the lines of the
body, and a closing line with the same fence character at least as often.
-/

namespace LessonBook

/-- The names whose directives hold markup. All other bodies are opaque. -/
def admonitionNames : List Text :=
  ["admonition".toList, "attention".toList, "caution".toList, "danger".toList,
    "error".toList, "hint".toList, "important".toList, "note".toList, "seealso".toList,
    "tip".toList, "warning".toList]

def isAdmonitionName (name : Text) : Bool :=
  admonitionNames.contains name

structure Directive where
  name : Text
  args : Text
  fence : Text
  body : Text
  closed : Bool
  deriving DecidableEq, Repr

namespace Directive

open Text Recognizer

structure Opening where
  mark : Char
  fence : Text
  name : Text
  args : Text
  deriving DecidableEq, Repr

def isFenceMark (c : Char) : Bool :=
  c == '`' || c == '~' || c == ':'

def isNameChar (c : Char) : Bool :=
  c != '\x7b' && c != '\x7d' && c != '\n'

/-- Reads an opening line with its newline: at most three spaces, three or more
equal fence characters, blanks, a name in braces, and the rest of the line. -/
def opening? (text : Text) : Option (Opening × Text) := do
  let fenced := indent text
  let mark ← fenced.head?
  if !isFenceMark mark then none
  let fence := fenced.takeWhile (· == mark)
  if fence.length < 3 then none
  let braced ← char '\x7b' (skipSpacesAndTabs (fenced.dropWhile (· == mark)))
  let name := braced.takeWhile isNameChar
  if name.isEmpty then none
  let afterName ← char '\x7d' (braced.dropWhile isNameChar)
  let rest ← lineEnd (afterFirstLine afterName)
  some (⟨mark, fence, name, firstLine afterName⟩, rest)

def closes (mark : Char) (count : Nat) (line : Text) : Bool :=
  let run := indent line
  count ≤ (run.takeWhile (· == mark)).length &&
    (run.dropWhile (· == mark)).all isSpaceOrTab

def splitAtLine (isClosing : Text → Bool) : List Text → Option (List Text × List Text)
  | [] => none
  | line :: lines =>
      if isClosing line then some ([], lines)
      else (splitAtLine isClosing lines).map fun (front, back) => (line :: front, back)

def following : List Text → Text
  | [] => []
  | lines => '\n' :: joinLines lines

/-- Reads a directive. Without a closing line it takes the whole text. -/
def read? (colonFence : Bool) (text : Text) : Option (Directive × Text) := do
  let (opening, rest) ← opening? text
  if opening.mark == ':' && !colonFence then none
  let opened := (before text rest).getLast? == some '\n'
  let name := trim opening.name
  let args := trim opening.args
  match if opened then splitAtLine (closes opening.mark opening.fence.length) (lines rest)
      else none with
  | some (body, after) =>
      some (⟨name, args, opening.fence, joinLines body, true⟩, following after)
  | none => some (⟨name, args, opening.fence, rest, false⟩, [])

end Directive

end LessonBook
