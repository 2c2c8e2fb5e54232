import LessonBook.Markup.Tree

/-!
The lines between which an admonition stands, and the plain text that its
opening and closing lines become. Lines are counted from zero here.
-/

namespace LessonBook

structure AdmonitionSpan where
  startLine : Nat
  endLine : Nat
  type : Text
  title : Option Text
  deriving DecidableEq, Repr

namespace AdmonitionSpan

open Text

def isClosingLine (line : Text) : Bool :=
  let fence := trim line
  3 ≤ fence.length && fence.all Directive.isFenceMark

def lastClosingBelow? (lines : List Text) (low : Nat) : Nat → Option Nat
  | 0 => none
  | line + 1 =>
      if line ≤ low then none
      else if (lines[line]?).any isClosingLine then some line
      else lastClosingBelow? lines low line

/-- The closing line of an admonition, searched upwards from `bound`. The line
right below the opening one never closes it. -/
def closingLine? (lines : List Text) (startLine bound : Nat) : Option Nat :=
  lastClosingBelow? lines (startLine + 1) (min (bound + 1) lines.length)

mutual

/-- The spans of a node and of the admonitions inside it. An admonition ends
above `bound`, which is the last line that it may have. -/
def ofNode (lines : List Text) (bound : Nat) : Node → Except StructureError (List AdmonitionSpan)
  | .admonition type title _ line inside =>
      match closingLine? lines (line - 1) bound with
      | none => .error (.unfinishedAdmonition line)
      | some endLine => do
          let inner ← ofNodes lines (endLine - 1) inside
          .ok (⟨line - 1, endLine, type, title⟩ :: inner)
  | .directive .. | .block .. => .ok []

/-- The next node bounds the one before it; the last is bounded by what surrounds all. -/
def ofNodes (lines : List Text) (bound : Nat) :
    List Node → Except StructureError (List AdmonitionSpan)
  | [] => .ok []
  | [last] => ofNode lines bound last
  | node :: next :: others => do
      let spans ← ofNode lines (next.line - 2) node
      let more ← ofNodes lines bound (next :: others)
      .ok (spans ++ more)

end

/-- The spans of all admonitions of a page; outer ones stand before inner ones. -/
def locate (reading : Reading) (page : Text) : Except StructureError (List AdmonitionSpan) := do
  let tree ← Tree.ofText reading page
  let pageLines := lines (normalizeLineEnds page)
  ofNodes pageLines (pageLines.length - 1) tree.nodes

end AdmonitionSpan

end LessonBook
