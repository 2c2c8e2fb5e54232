import LessonBook.Text.Recognizer
import LessonBook.Markup.Block.Heading
import LessonBook.Markup.Block.Html

/-!
The lines that end a paragraph, and tables, whose rows end at the same lines.
-/

namespace LessonBook

open Text Recognizer

namespace Interruption

def isFence (text : Text) : Bool :=
  let opened := indent text
  match opened with
  | [] => false
  | mark :: _ =>
      let info := opened.dropWhile (· == mark)
      (mark == '`' || mark == '~') && 3 ≤ (opened.takeWhile (· == mark)).length &&
        !(mark == '`' && (firstLine info).contains '`') && startsWith ['\n'] (afterFirstLine info)

/-- A list may interrupt only if it is a bullet list or starts with one. -/
def isListItem (text : Text) : Bool :=
  match indent text with
  | '1' :: delimiter :: ' ' :: _ => delimiter == '.' || delimiter == ')'
  | bullet :: ' ' :: _ => bullet == '*' || bullet == '+' || bullet == '-'
  | _ => false

def isQuote (text : Text) : Bool :=
  startsWith ['>'] (indent text)

/-- A block that ends the text above it, whether a paragraph or a table. -/
def opensBlock (text : Text) : Bool :=
  (ThematicBreak.read? text).isSome || (Heading.afterSigns? text).isSome || isQuote text ||
    isFence text || isListItem text || Html.interruptsParagraph text

end Interruption

namespace Table

def bar (text : Text) : Text :=
  match text with
  | '|' :: rest => skipSpaces rest
  | _ => text

/-- The dashes of one column, perhaps between colons, and the spaces after them. -/
def alignment? (text : Text) : Option Text := do
  let dashes := match text with
    | ':' :: rest => rest
    | _ => text
  let rest ← some1 (· == '-') dashes
  some <| skipSpaces <| match rest with
    | ':' :: after => after
    | _ => rest

def nextAlignment? (text : Text) : Option Text := do
  let rest ← char '|' text
  alignment? (skipSpaces rest)

def alignmentRow? (text : Text) : Option Text := do
  let first ← alignment? (bar (indent text))
  let rest := bar (many nextAlignment? first)
  if atLineEnd rest then some rest else none

def header? (text : Text) : Option (Text × Text) := do
  let written := skipSpaces text
  let rest ← one notNewline written
  if (firstLine rest).any isTerminator then none
  some (firstLine written, ← char '\n' (afterFirstLine rest))

def row? (text : Text) : Option Text :=
  if text.isEmpty || startsWith ['\n'] (skipSpaces text) || Interruption.opensBlock text ||
      ((word [' ', ' ', ' ', ' '] text).bind (one notNewline)).isSome ||
      (firstLine text).any isTerminator then
    none
  else
    lineEnd (afterFirstLine text)

def parts? (text : Text) : Option (Text × Text × Text × Text) := do
  let (header, alignments) ← header? text
  let after ← alignmentRow? alignments
  match after with
  | [] => some (header, indent alignments, [], [])
  | _ :: rows =>
      let rest := many row? rows
      some (header, before (indent alignments) after, before rows rest, skipNewlines rest)

/-- Cuts a row at the bars that have an even number of backslashes in front. -/
def splitAtBars (escaped : Bool) : Text → List Text
  | [] => [[]]
  | c :: rest =>
      if c == '|' && !escaped then [] :: splitAtBars false rest
      else match splitAtBars (c == '\\' && !escaped) rest with
        | [] => [[c]]
        | first :: others => (c :: first) :: others

/-- A bar behind a backslash stands for itself. -/
def unescapeBars : Text → Text
  | [] => []
  | '\\' :: '|' :: rest => '|' :: unescapeBars rest
  | c :: rest => c :: unescapeBars rest

/-- The cells of a row; an empty one at either end is not counted. -/
def cells (row : Text) : List Text :=
  let pieces := splitAtBars false row
  let fromFirst := match pieces with
    | first :: others => if (trim first).isEmpty then others else pieces
    | [] => []
  match fromFirst.getLast? with
  | some last => if (trim last).isEmpty then fromFirst.dropLast else fromFirst
  | none => fromFirst

def cellText (cell : Text) : Text :=
  unescapeBars (trim cell)

def columnCount (alignments : Text) : Nat :=
  alignments.count '|' + 1 - (if startsWith ['|'] alignments then 1 else 0) -
    (if endsWith ['|'] (dropEndWhile (· == ' ') alignments) then 1 else 0)

/-- The lines of the row part; blanks after its last newline make no row. -/
def rowLines (rows : Text) : List Text :=
  let kept := dropEndWhile isSpaceOrTab rows
  if (trim rows).isEmpty then []
  else if endsWith ['\n'] kept then lines kept.dropLast
  else lines rows

def fitRow (columns : Nat) (row : List Text) : List Text :=
  row.take columns ++ List.replicate (columns - row.length) []

/-- Reads a table and answers with the texts of its cells, row after row. The
alignment row needs a colon or a bar and as many columns as the header. -/
def read? (text : Text) : Option (List Text × Text) := do
  let (header, alignments, rows, rest) ← parts? text
  if !(alignments.contains ':' || alignments.contains '|') then none
  let columns := columnCount alignments
  if (cells header).length != columns then none
  let body := (rowLines rows).map fun row => fitRow columns (cells row)
  some (((cells header :: body).flatten).map cellText, rest)

end Table

namespace Paragraph

/-- The next line belongs to the paragraph unless it opens a block, or a table
where tables are read, or holds only spaces. -/
def continuation? (tables : Bool) (text : Text) : Option Text := do
  let line ← char '\n' text
  if Interruption.opensBlock line || (tables && (Table.parts? line).isSome) ||
      (startsWith [' '] line && startsWith ['\n'] (skipSpaces line)) then none
  let rest ← one notNewline line
  some (afterFirstLine rest)

def rest? (tables : Bool) (text : Text) : Option Text := do
  let rest ← one notNewline text
  some (many (continuation? tables) (afterFirstLine rest))

end Paragraph

namespace Quote

def piece? (text : Text) : Option Text := do
  let behind ← char '>' (indent text)
  let quoted := match behind with
    | ' ' :: rest => rest
    | _ => behind
  lineEnd ((Paragraph.rest? false quoted).getD (afterFirstLine quoted))

def isUnderline (line : Text) : Bool :=
  match indent line with
  | [] => false
  | mark :: rest =>
      (mark == '=' || mark == '-') && atLineEnd (skipSpaces (rest.dropWhile (· == mark)))

/-- Indents every underline by four spaces, which makes no heading of the line above. -/
def protectUnderlines (skipped : Nat) : Text → Text
  | [] => []
  | c :: rest =>
      match skipped with
      | count + 1 => protectUnderlines count rest
      | 0 =>
          if c == '\n' && isUnderline rest then
            ['\n', ' ', ' ', ' ', ' '] ++ protectUnderlines (rest.length - (indent rest).length) rest
          else c :: protectUnderlines 0 rest

def markLength (line : Text) : Nat :=
  match skipSpaces line with
  | '>' :: rest =>
      line.length - rest.length + (if (rest.head?.map isSpaceOrTab).getD false then 1 else 0)
  | _ => 0

def content (raw : Text) : Text :=
  dropEndWhile (· == '\n') (cutLineStarts markLength 0 true (protectUnderlines 0 raw))

def read? (text : Text) : Option (Text × Text) := do
  let rest := many piece? (← piece? text)
  some (content (before text rest), rest)

end Quote

end LessonBook
