import LessonBook.Notebook.ChunkOption
import LessonBook.Notebook.Header
import LessonBook.Text.Recognizer

/-!
Reads a document as a notebook. Code chunks and explicit regions are one cell
each; the lines between them are cut into cells at two or more blank lines.
-/

namespace LessonBook

open Text

structure SourceFormat where
  name : Text := "extended-markdown-notebook".toList
  extension : Text := ".Rmd".toList
  deriving Repr

namespace Notebook

def isBlankLine (line : Text) : Bool :=
  (trim line).isEmpty

def withoutOuterBlanks (lines : List Text) : List Text :=
  ((lines.dropWhile isBlankLine).reverse.dropWhile isBlankLine).reverse

/-- Cuts in front of each line that follows at least two blank ones. The lines of
the current block stand last first. -/
def cutBlocks (blankRun : Nat) (current : List Text) : List Text → List (List Text)
  | [] => [current.reverse]
  | line :: rest =>
      if isBlankLine line then cutBlocks (blankRun + 1) (line :: current) rest
      else if 2 ≤ blankRun then current.reverse :: cutBlocks 0 [line] rest
      else cutBlocks 0 (line :: current) rest

def proseBlocks (lines : List Text) : List (List Text) :=
  ((cutBlocks 0 [] lines).map withoutOuterBlanks).filter (!·.isEmpty)

def markdownCells (lines : List Text) : List Cell :=
  (proseBlocks lines).map fun block => Cell.ofLines .markdown block []

/-! ### Lines that begin and end cells -/

def fence : Text := ['\x60', '\x60', '\x60']

def plainLanguage : Text := "python".toList

/-- The metadata of the chunk that a line opens: its options, and its language
unless that is the usual one. -/
def chunkStart? (line : Text) : Option Metadata := do
  let header ← Recognizer.word (fence ++ ['\x7b']) line
  let afterLetter ← Recognizer.one Char.isAlpha header
  let inName (c : Char) : Bool := isWordChar c || c == '-'
  let language := lower (header.take 1 ++ afterLetter.takeWhile inName)
  let behind := afterLetter.dropWhile inName
  let closing ← Recognizer.char '\x7d' (behind.dropWhile (· != '\x7d'))
  if closing.all isSpaceOrTab then
    let options := ChunkOption.parse (behind.takeWhile (· != '\x7d'))
    some (if language = plainLanguage then options
      else Record.put "language".toList (.string language) options)
  else none

def isChunkEnd (line : Text) : Bool :=
  startsWith fence line && (line.drop 3).all isSpaceOrTab

inductive CellRegion where
  | region
  | raw
  deriving Repr, DecidableEq

namespace CellRegion

def name : CellRegion → Text
  | region => "region".toList
  | raw => "raw".toList

def cellKind : CellRegion → CellKind
  | region => .markdown
  | raw => .raw

end CellRegion

def commentOpen : Text := "<!--".toList

def commentClose : Text := "-->".toList

def commentWord? (word line : Text) : Option Text := do
  let inner ← Recognizer.word commentOpen line
  Recognizer.word ('#' :: word) (Recognizer.skipBlanks inner)

def startsRegion (kind : CellRegion) (line : Text) : Bool :=
  match commentWord? kind.name line with
  | some rest =>
      let closed := dropEndWhile isSpaceOrTab rest
      !(rest.head?.any isWordChar) && endsWith commentClose closed &&
        !(closed.take (closed.length - 3)).any isTerminator
  | none => false

def regionStart? (line : Text) : Option CellRegion :=
  if startsRegion .region line then some .region
  else if startsRegion .raw line then some .raw
  else none

def isRegionEnd (kind : CellRegion) (line : Text) : Bool :=
  match commentWord? ("end".toList ++ kind.name) line with
  | some rest =>
      match Recognizer.word commentClose (Recognizer.skipBlanks rest) with
      | some blanks => blanks.all isSpaceOrTab
      | none => false
  | none => false

/-! ### Cells -/

inductive Part where
  | prose
  | chunk (metadata : Metadata)
  | region (kind : CellRegion)
  deriving Repr

def cellsOf (part : Part) (lines : List Text) : List Cell :=
  match part with
  | .prose => markdownCells lines
  | .chunk metadata => [Cell.ofLines .code lines metadata]
  | .region kind => [Cell.ofLines kind.cellKind (withoutOuterBlanks lines) []]

def closes (part : Part) (line : Text) : Bool :=
  match part with
  | .prose => false
  | .chunk _ => isChunkEnd line
  | .region kind => isRegionEnd kind line

def opens? (line : Text) : Option Part :=
  match chunkStart? line, regionStart? line with
  | some metadata, _ => some (.chunk metadata)
  | none, some kind => some (.region kind)
  | none, none => none

/-- The cells of the lines that are left. The lines of the current part stand
last first; a part that is not closed goes on to the end. -/
def cellsFrom (part : Part) (held : List Text) : List Text → List Cell
  | [] => cellsOf part held.reverse
  | line :: rest =>
      match part with
      | .prose =>
          match opens? line with
          | some opened => cellsOf .prose held.reverse ++ cellsFrom opened [] rest
          | none => cellsFrom .prose (line :: held) rest
      | inner =>
          if closes inner line then cellsOf inner held.reverse ++ cellsFrom .prose [] rest
          else cellsFrom inner (line :: held) rest

def bodyCells (lines : List Text) : List Cell :=
  cellsFrom .prose [] lines

def documentLines (text : Text) : List Text :=
  lines (normalizeLineEnds text)

def ofTextBy {Fault Value : Type} (read : List Text → Except Fault (Record Value × List Cell))
    (text : Text) : Except Fault (Notebook Value) :=
  let all := documentLines text
  match Header.split? all with
  | none => .ok { cells := bodyCells all }
  | some (header, body) => do
      let (metadata, cells) ← read header
      .ok { cells := cells ++ bodyCells body, metadata }

section OfTextBy

variable {Fault Value : Type} {read : List Text → Except Fault (Record Value × List Cell)}
  {text : Text}

theorem of_text_by_headless (headless : Header.split? (documentLines text) = none) :
    ofTextBy read text = .ok { cells := bodyCells (documentLines text) } := by
  simp only [ofTextBy, headless]

theorem of_text_by_header {header body : List Text}
    (cut : Header.split? (documentLines text) = some (header, body)) :
    ofTextBy read text = (read header).map fun (metadata, cells) =>
      { cells := cells ++ bodyCells body, metadata } := by
  simp only [ofTextBy, cut]
  cases read header <;> rfl

end OfTextBy

/-- The notebook of a document, with the values of its header as metadata. -/
def ofTextWith (yaml : Yaml.Library) : Text → Except yaml.Fault (Notebook yaml.Value) :=
  ofTextBy (Header.readWith yaml)

def ofText : Text → Except NotebookFault Notebook :=
  ofTextBy Header.read

/-- The notebook of a document in a format given by name; only the standard one
is known. -/
def ofTextIn (format : SourceFormat) (text : Text) : Except NotebookFault Notebook :=
  let standard : SourceFormat := {}
  if format.name ≠ standard.name then .error (.unsupportedFormat format.name)
  else if lower format.extension ≠ lower standard.extension then
    .error (.unsupportedExtension format.name format.extension)
  else ofText text

end Notebook

end LessonBook
