import LessonBook.Markup.Extension
import LessonBook.Markup.Block.Basic
import LessonBook.Markup.Block.Code
import LessonBook.Markup.Block.Html
import LessonBook.Markup.Block.Heading
import LessonBook.Markup.Block.ListItem
import LessonBook.Markup.Block.Table

/-!
Cuts a page into blocks. At every position the kinds of blocks are tried in a
fixed order, and the first that reads something takes its raw text. A paragraph
ends early where a directive or a formula begins at a line start inside it.
-/

namespace LessonBook

namespace BlockReader

open Text Recognizer

/-- Tabs among the leading blanks of a line count four spaces each; `leading`
holds while only spaces were seen on the line, `inTabs` while tabs follow. -/
def expandTabs (leading inTabs : Bool) : Text → Text
  | [] => []
  | c :: rest =>
      if c == '\t' && (leading || inTabs) then
        [' ', ' ', ' ', ' '] ++ expandTabs false true rest
      else if c == ' ' && leading then c :: expandTabs true false rest
      else c :: expandTabs (isTerminator c) false rest

def expandLeadingTabs (text : Text) : Text :=
  expandTabs true false text

def atTerminator : Text → Bool
  | [] => true
  | c :: _ => isTerminator c

/-- The index of the first accepted reading at a line start other than the
front. A reading that is not accepted still takes its text. -/
def startFrom (read : Text → Option (Bool × Text)) (skipped index : Nat) (atStart : Bool) :
    Text → Option Nat
  | [] => none
  | text@(c :: rest) =>
      match skipped with
      | count + 1 => startFrom read count (index + 1) (isTerminator c) rest
      | 0 =>
          match if atStart then read text else none with
          | some (accepted, left) =>
              if accepted && 0 < index then some index
              else startFrom read (text.length - left.length - 1) (index + 1) (isTerminator c) rest
          | none => startFrom read 0 (index + 1) (isTerminator c) rest

def directiveStart? (colonFence : Bool) (text : Text) : Option Nat :=
  startFrom (fun here => (Directive.opening? here).map fun (opening, rest) =>
    (colonFence || opening.mark != ':', rest)) 0 0 true text

def dollarStart? (text : Text) : Option Nat :=
  startFrom (fun here => (Formula.dollar? atTerminator here).map fun (_, rest) => (true, rest))
    0 0 true text

def environmentStart? (text : Text) : Option Nat :=
  startFrom (fun here => (Formula.environment? atTerminator here).map fun (_, rest) => (true, rest))
    0 0 true text

def least? (first second : Option Nat) : Option Nat :=
  match first, second with
  | some a, some b => some (min a b)
  | some a, none => some a
  | none, other => other

def interruption? (enabled : List Extension) (text : Text) : Option Nat :=
  least? (directiveStart? (enabled.contains .colonFence) text)
    (least? (if enabled.contains .dollarmath then dollarStart? text else none)
      (if enabled.contains .amsmath then environmentStart? text else none))

/-- The blocks read so far, the last one first. `clipped` tells that the last
paragraph was cut short, and `paragraphs` that plain text makes paragraphs. -/
structure Progress where
  blocks : List Block
  clipped : Bool
  paragraphs : Bool
  deriving Repr

namespace Progress

def start (paragraphs : Bool) : Progress := ⟨[], false, paragraphs⟩

def push (block : Block) (progress : Progress) : Progress :=
  { progress with blocks := block :: progress.blocks }

def pushLeaf (raw : Text) (leaf : Leaf) (progress : Progress) : Progress :=
  progress.push (.leaf raw leaf)

/-- A single newline ends the block in front of it; more space stands for itself. -/
def addSpace (raw : Text) (progress : Progress) : Progress :=
  match raw, progress.blocks with
  | [_], last :: earlier => { progress with blocks := last.extendRaw ['\n'] :: earlier }
  | _, _ => progress.pushLeaf raw .space

/-- Indented lines go on with a paragraph in front of them. -/
def addIndented (raw text : Text) (progress : Progress) : Progress :=
  match progress.blocks with
  | .leaf front (.paragraph prose) :: earlier =>
      { progress with
        blocks := .leaf (front ++ '\n' :: raw) (.paragraph (prose ++ '\n' :: text)) :: earlier }
  | .leaf front (.line prose) :: earlier =>
      { progress with
        blocks := .leaf (front ++ '\n' :: raw) (.line (prose ++ '\n' :: text)) :: earlier }
  | _ => progress.pushLeaf raw (.code text)

/-- A paragraph goes on with a clipped one directly in front of it. -/
def addParagraph (raw text : Text) (clipped : Bool) (progress : Progress) : Progress :=
  match progress.clipped, progress.blocks with
  | true, .leaf front (.paragraph prose) :: earlier =>
      { progress with
        blocks := .leaf (front ++ '\n' :: raw) (.paragraph (prose ++ '\n' :: text)) :: earlier
        clipped := clipped }
  | _, _ => { progress.pushLeaf raw (.paragraph text) with clipped := clipped }

def addLine (text : Text) (progress : Progress) : Progress :=
  match progress.blocks with
  | .leaf front (.line prose) :: earlier =>
      { progress with
        blocks := .leaf (front ++ '\n' :: text) (.line (prose ++ '\n' :: text)) :: earlier }
  | _ => progress.pushLeaf text (.line text)

end Progress

/-- How the inner blocks of a text are read: with paragraphs or without. -/
abbrev Inner := Bool → Text → List Block

abbrev Step := Progress → Text → Option (Progress × Text)

def leafStep {Content : Type} (read : Text → Option (Content × Text)) (leaf : Content → Leaf) :
    Step := fun progress text => do
  let (content, rest) ← read text
  some (progress.pushLeaf (before text rest) (leaf content), rest)

def when (enabled : Bool) (step : Step) : Step := fun progress text =>
  if enabled then step progress text else none

/-- The body of an admonition is read as the text around it is. -/
def directiveStep (colonFence : Bool) (inner : Inner) : Step := fun progress text => do
  let (directive, rest) ← Directive.read? colonFence text
  let raw := before text rest
  if isAdmonitionName directive.name then
    let body := inner progress.paragraphs directive.body
    some ({ progress.push (.directive raw directive body) with paragraphs := true }, rest)
  else
    some (progress.push (.directive raw directive []), rest)

/-- Front matter stands only where no block was read yet. -/
def frontMatterStep : Step := fun progress text =>
  if progress.blocks.isEmpty then leafStep FrontMatter.read? .frontMatter progress text else none

def spaceStep : Step := fun progress text =>
  let rest := skipSpaceLines text
  if rest.length < text.length then some (progress.addSpace (before text rest), rest) else none

def indentedStep : Step := fun progress text => do
  let (content, rest) ← IndentedCode.read? text
  some (progress.addIndented (before text rest) content, rest)

def ruleStep : Step := fun progress text => do
  let rest ← ThematicBreak.read? text
  some (progress.pushLeaf (before text rest) .thematicBreak, rest)

def quoteStep (inner : Inner) : Step := fun progress text => do
  let (content, rest) ← Quote.read? text
  some (progress.push (.quote (before text rest) content (inner true content)), rest)

def listStep (checkBoxes : Bool) (inner : Inner) : Step := fun progress text => do
  let (contents, rest) ← ListItem.readList? checkBoxes text
  let items := contents.map (inner false)
  some ({ progress.push (.list (before text rest) items) with paragraphs := true }, rest)

def htmlStep : Step := fun progress text => do
  let rest ← Html.read? text
  let raw := before text rest
  some (progress.pushLeaf raw (.html raw), rest)

/-- One newline at the end of a paragraph does not belong to its text. -/
def withoutLastNewline (raw : Text) : Text :=
  if endsWith ['\n'] raw then raw.dropLast else raw

def paragraphStep (enabled : List Extension) : Step := fun progress text =>
  if !progress.paragraphs then none
  else do
    let visible := match interruption? enabled (text.drop 1) with
      | some index => text.take (index + 1)
      | none => text
    let left ← Paragraph.rest? (Extension.enablesTables enabled) visible
    let raw := before visible left
    some (progress.addParagraph raw (withoutLastNewline raw) (visible.length != text.length),
      text.drop raw.length)

def lineStep : Step := fun progress text =>
  match firstLine text with
  | [] => none
  | line => some (progress.addLine line, text.drop line.length)

/-- The kinds of blocks in the order in which they are tried. -/
def steps (enabled : List Extension) (inner : Inner) : List Step :=
  let tables := Extension.enablesTables enabled
  [ when (enabled.contains .htmlImage)
      (leafStep ImageElement.read? fun (source, alternative) => .image source alternative),
    when (enabled.contains .fieldlist) (leafStep FieldList.read? .fields),
    when (enabled.contains .deflist)
      (leafStep DefinitionList.read? fun (term, definitions) => .definitions term definitions),
    when (enabled.contains .amsmath) (leafStep (Formula.environment? atLineEnd) Leaf.formula),
    when (enabled.contains .dollarmath) (leafStep (Formula.dollar? atLineEnd) Leaf.formula),
    directiveStep (enabled.contains .colonFence) inner,
    frontMatterStep,
    spaceStep,
    indentedStep,
    leafStep FencedCode.read? .code,
    leafStep Heading.read? .heading,
    ruleStep,
    quoteStep inner,
    listStep tables inner,
    htmlStep,
    when tables (leafStep Table.read? .table),
    leafStep Heading.underlined? .heading,
    paragraphStep enabled,
    lineStep ]

def firstStep (progress : Progress) (text : Text) : List Step → Option (Progress × Text)
  | [] => none
  | step :: others =>
      match step progress text with
      | some result => some result
      | none => firstStep progress text others

/-- Reads blocks until the text is used up. Every step takes a character, and
inner texts have fewer characters other than blanks, which bounds `fuel`. -/
def readFrom (enabled : List Extension) : Nat → Progress → Text → Progress
  | 0, progress, _ => progress
  | fuel + 1, progress, text =>
      if text.isEmpty then progress
      else
        let inner : Inner := fun paragraphs body =>
          (readFrom enabled fuel (.start paragraphs) (expandLeadingTabs body)).blocks.reverse
        match firstStep progress text (steps enabled inner) with
        | some (next, rest) => readFrom enabled fuel next rest
        | none => progress

end BlockReader

def Block.ofText (enabled : List Extension) (page : Text) : List Block :=
  let source := Text.normalizeLineEnds page
  (BlockReader.readFrom enabled (source.length + 2) (.start true)
    (BlockReader.expandLeadingTabs source)).blocks.reverse

end LessonBook
