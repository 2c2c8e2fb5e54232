import LessonBook.Admonition.Span

/-!
Admonitions as plain text: the opening line becomes a line that says what
starts, and the closing line one that says what ends. All other lines, and all
line ends, are kept.
-/

namespace LessonBook

namespace AdmonitionBracketing

open Text Recognizer

/-- Lines with the line end behind each; the last line has none. -/
def linesWithEnds : Text → List (Text × Text)
  | [] => [([], [])]
  | '\r' :: '\n' :: rest => ([], ['\r', '\n']) :: linesWithEnds rest
  | c :: rest =>
      if c == '\n' || c == '\r' then ([], [c]) :: linesWithEnds rest
      else match linesWithEnds rest with
        | [] => [([c], [])]
        | (line, ending) :: others => (c :: line, ending) :: others

structure Header where
  type : Text
  title : Text
  deriving DecidableEq, Repr

/-- Reads an opening line: an optional fence, the type in braces, and the title.
A title that is cut by a Unicode line terminator is not read. -/
def header? (line : Text) : Option Header := do
  let start := skipBlanks line
  let fence := start.takeWhile Directive.isFenceMark
  let rest := if 3 ≤ fence.length then start.dropWhile Directive.isFenceMark else start
  let inside ← char '\x7b' (skipBlanks rest)
  let type := inside.takeWhile (· != '\x7d')
  if type.isEmpty then none
  let after ← char '\x7d' (inside.dropWhile (· != '\x7d'))
  let title := trim after
  if title.any isTerminator then none
  some ⟨trim type, title⟩

def startText (header : Header) : Text :=
  if header.title.isEmpty then
    "**Start of ".toList ++ header.type ++ ['*', '*']
  else
    "**Start of ".toList ++ header.type ++ [':', ' '] ++ header.title ++ ['*', '*']

def endText (type : Text) : Text :=
  "**End of ".toList ++ type ++ ['*', '*']

def setLine (index : Nat) (text : Text) (pageLines : List (Text × Text)) : List (Text × Text) :=
  pageLines.modify index fun line => (text, line.2)

def applySpan (pageLines : List (Text × Text)) (span : AdmonitionSpan) :
    Except StructureError (List (Text × Text)) :=
  let opening := ((pageLines[span.startLine]?).map Prod.fst).getD []
  match header? opening with
  | none => .error (.unexpectedHeader (trim opening) (span.startLine + 1))
  | some header =>
      .ok (setLine span.endLine (endText header.type)
        (setLine span.startLine (startText header) pageLines))

def applySpans (pageLines : List (Text × Text)) :
    List AdmonitionSpan → Except StructureError (List (Text × Text))
  | [] => .ok pageLines
  | span :: spans => do
      let replaced ← applySpan pageLines span
      applySpans replaced spans

def joinWithEnds (pageLines : List (Text × Text)) : Text :=
  pageLines.flatMap fun line => line.1 ++ line.2

theorem join_lines_with_ends (page : Text) : joinWithEnds (linesWithEnds page) = page := by
  fun_induction linesWithEnds page with
  | case1 => rfl
  | case2 rest induction => simpa [joinWithEnds] using induction
  | case3 c rest _ _ induction => simpa [joinWithEnds] using induction
  | case4 c rest _ _ empty induction => simp_all [joinWithEnds]
  | case5 c rest _ _ line ending others found induction =>
      rw [found] at induction
      simpa [joinWithEnds] using induction

end AdmonitionBracketing

/-- Replaces the opening and closing line of every admonition of a page. -/
def bracketAdmonitions (reading : Reading) (page : Text) : Except StructureError Text := do
  let spans ← AdmonitionSpan.locate reading page
  let replaced ← AdmonitionBracketing.applySpans (AdmonitionBracketing.linesWithEnds page) spans
  .ok (AdmonitionBracketing.joinWithEnds replaced)

end LessonBook
