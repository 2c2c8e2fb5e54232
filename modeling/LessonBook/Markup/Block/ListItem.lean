import LessonBook.Text.Recognizer
import LessonBook.Markup.Block.Heading

/-!
Lists. All items of a list have the same bullet sign, or numbers with the same
delimiter. An item takes the lines that are indented as far as its text, and
lines that go on with its last paragraph.
-/

namespace LessonBook

namespace ListItem

open Text Recognizer

inductive Mark where
  | bullet (sign : Char)
  | number (delimiter : Char)
  deriving DecidableEq, Repr

def mark? (text : Text) : Option (Mark × Text) := do
  let inside := indent text
  let rest ← Heading.listMark? inside
  let sign ← (before inside rest).getLast?
  if 1 < (before inside rest).length then some (.number sign, rest) else some (.bullet sign, rest)

def afterMark? (rest : Text) : Option Text :=
  match rest with
  | [] => some []
  | c :: _ => if isSpaceOrTab c || c == '\n' then lineEnd (afterFirstLine rest) else none

/-- A list begins with a mark alone on its line or with text behind it; a mark
with a single blank behind it begins none. -/
def begins? (text : Text) : Option Mark := do
  let (mark, rest) ← mark? text
  match rest with
  | [] => some mark
  | c :: written =>
      if c == '\n' || (isSpaceOrTab c && (one notNewline written).isSome) then some mark else none

def item? (mark : Mark) (text : Text) : Option (Text × Text) := do
  let (found, rest) ← mark? text
  if found != mark then none
  let _ ← afterMark? rest
  some (before text rest, rest)

def indentWithin (width : Nat) (line : Text) : Text :=
  skipUpTo (· == ' ') (min 3 (width - 1)) line

def beginsFence (width : Nat) (line : Text) : Bool :=
  let opened := indentWithin width line
  startsWith ['`', '`', '`'] opened || startsWith ['~', '~', '~'] opened

def beginsHeading (width : Nat) (line : Text) : Bool :=
  startsWith ['#'] (indentWithin width line)

def beginsItem (width : Nat) (line : Text) : Bool :=
  ((Heading.listMark? (indentWithin width line)).bind afterMark?).isSome

def isRule (width : Nat) (text : Text) : Bool :=
  ThematicBreak.isRule (· == ' ') (firstLine (indentWithin width text))

structure Open where
  raw : Text
  content : Text
  line : Text
  blankSeen : Bool
  deriving Repr

def extend? (width : Nat) (item : Open) (text : Text) : Option Open :=
  let next := firstLine text
  let isBlankLine := (trim next).isEmpty
  if beginsFence width next || beginsHeading width next || beginsItem width next ||
      isRule width text then
    none
  else
    let indented := isBlankLine || (indentWidth? next).any fun depth => width ≤ depth
    let added := if indented then next.drop width else next
    if !indented && (item.blankSeen || ((indentWidth? item.line).any fun depth => 4 ≤ depth) ||
        beginsFence width item.line || beginsHeading width item.line || isRule width item.line) then
      none
    else
      some ⟨item.raw ++ next ++ ['\n'], item.content ++ '\n' :: added, next.drop width,
        item.blankSeen || isBlankLine⟩

def extendAll (width : Nat) : Nat → Open → Text → Open × Text
  | 0, item, text => (item, text)
  | count + 1, item, text =>
      if text.isEmpty then (item, text)
      else match extend? width item text with
        | some extended => extendAll width count extended ((afterFirstLine text).drop 1)
        | none => (item, text)

/-- Leading tabs count three spaces each behind a mark. -/
def expandTabs (line : Text) : Text :=
  List.replicate (3 * (line.takeWhile (· == '\t')).length) ' ' ++ line.dropWhile (· == '\t')

def read? (mark : Mark) (text : Text) : Option ((Text × Text) × Text) := do
  if (ThematicBreak.read? text).isSome then none
  let (opening, written) ← item? mark text
  let rest ← afterMark? written
  let line := expandTabs (firstLine written)
  let depth := (indentWidth? (written.take (written.length - rest.length))).getD 0
  let inner := if 4 < depth then 1 else depth
  let raw := before text rest
  if line.isEmpty && (firstLine rest).all (· == ' ') then
    some ((raw ++ firstLine rest ++ ['\n'], []), (afterFirstLine rest).drop 1)
  else
    let (item, left) := extendAll (opening.length + inner) (rest.length + 1)
      ⟨raw, line.drop inner, line, false⟩ rest
    some ((item.raw, item.content), left)

def readAll (mark : Mark) : Nat → Text → List (Text × Text)
  | 0, _ => []
  | count + 1, text =>
      match read? mark text with
      | some (item, rest) => item :: (if rest.isEmpty then [] else readAll mark count rest)
      | none => []

def uncheck (content : Text) : Text :=
  match content with
  | '[' :: box :: ']' :: ' ' :: rest =>
      if box == ' ' || box == 'x' || box == 'X' then skipSpaces rest else content
  | _ => content

/-- Reads a list; answers with the contents of its items. The blanks at its
end do not belong to it. -/
def readList? (checkBoxes : Bool) (text : Text) : Option (List Text × Text) := do
  let mark ← begins? text
  let items := readAll mark text.length text
  let raw := trimEnd (items.map Prod.fst).flatten
  let contents := items.map fun item => if checkBoxes then uncheck item.2 else item.2
  some (contents.dropLast ++ (contents.getLast?.map trimEnd).toList, text.drop raw.length)

end ListItem

end LessonBook
