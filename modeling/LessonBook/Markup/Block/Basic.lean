import LessonBook.Markup.Block.Directive
import LessonBook.Markup.Block.Fields
import LessonBook.Markup.Block.Math

/-!
The blocks of a page. Every block keeps its raw text. Admonition directives,
quotes and lists hold blocks of their own; every other block is a leaf.
-/

namespace LessonBook

inductive Leaf where
  | space
  | frontMatter (text : Text)
  | formula (content : Formula)
  | definitions (term : Text) (definitions : List Text)
  | fields (fields : Record Text)
  | image (source alternative : Text)
  | code (text : Text)
  | heading (text : Text)
  | thematicBreak
  | html (text : Text)
  | table (cells : List Text)
  | paragraph (text : Text)
  | line (text : Text)
  deriving DecidableEq, Repr

namespace Leaf

def kind : Leaf → String
  | space => "space"
  | frontMatter _ => "frontmatter"
  | formula _ => "math"
  | definitions _ _ => "deflist"
  | fields _ => "fieldlist"
  | image _ _ => "image"
  | code _ => "code"
  | heading _ => "heading"
  | thematicBreak => "hr"
  | html _ => "html"
  | table _ => "table"
  | paragraph _ => "paragraph"
  | line _ => "text"

def text? : Leaf → Option Text
  | frontMatter text => some text
  | formula content => some content.text
  | definitions term _ => some term
  | image _ alternative => some alternative
  | code text => some text
  | heading text => some text
  | html text => some text
  | paragraph text => some text
  | line text => some text
  | space | fields _ | thematicBreak | table _ => none

/-- Prose is set with typographic signs; other text is kept as it is written. -/
def isProse : Leaf → Bool
  | paragraph _ | heading _ | definitions _ _ => true
  | _ => false

def inlineTexts : Leaf → List Text
  | heading text | paragraph text | line text => [text]
  | table cells => cells
  | _ => []

end Leaf

inductive Block where
  | leaf (raw : Text) (leaf : Leaf)
  | directive (raw : Text) (directive : Directive) (body : List Block)
  | quote (raw text : Text) (body : List Block)
  | list (raw : Text) (items : List (List Block))
  deriving Repr

namespace Block

def raw : Block → Text
  | leaf raw _ => raw
  | directive raw _ _ => raw
  | quote raw _ _ => raw
  | list raw _ => raw

def extendRaw (more : Text) : Block → Block
  | leaf raw content => leaf (raw ++ more) content
  | directive raw content body => directive (raw ++ more) content body
  | quote raw text body => quote (raw ++ more) text body
  | list raw items => list (raw ++ more) items

end Block

end LessonBook
