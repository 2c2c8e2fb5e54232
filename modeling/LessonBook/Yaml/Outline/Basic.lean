import LessonBook.Yaml.Lexeme

/-!
The outline of a YAML stream: which lexemes belong to which collection, entry
and scalar, before it is known what they mean. Every lexeme keeps its place.
-/

namespace LessonBook.Yaml

/-- A lexeme with its distance from the start, and with the indentation of the
line so far when it was read. -/
structure Mark extends Lexeme where
  offset : Nat
  indent : Nat
  deriving DecidableEq, Repr

namespace Mark

def finish (mark : Mark) : Nat :=
  mark.offset + mark.text.units

def isEmptyKind : LexemeKind → Bool
  | .space | .comment | .newline => true
  | _ => false

def isEmpty (mark : Mark) : Bool :=
  isEmptyKind mark.kind

def anyOf (kind : LexemeKind) (marks : List Mark) : Bool :=
  marks.any (·.kind = kind)

end Mark

/-- An entry of a collection: the marks in front of it, whether one of them
makes the key explicit, the key, the marks between key and value, and the
value. An entry of a sequence has no key. -/
structure Entry (Part : Type) where
  start : List Mark := []
  isExplicit : Bool := false
  key : Option Part := none
  gap : Option (List Mark) := none
  value : Option Part := none
  deriving Repr, Inhabited

/-- A part of a document. The marks behind a leaf and behind the opening
bracket's partner are what stands up to the end of the line. -/
inductive Outline where
  | leaf (mark : Mark) (tail : List Mark)
  | blockScalar (header : List Mark) (body : Text) (indent : Nat)
  | blockMap (offset indent : Nat) (entries : List (Entry Outline))
  | blockSequence (offset indent : Nat) (entries : List (Entry Outline))
  | flow (opening : Mark) (indent : Nat) (entries : List (Entry Outline)) (closing : List Mark)
  deriving Repr, Inhabited

namespace Outline

def indent : Outline → Nat
  | leaf mark _ => mark.indent
  | blockScalar _ _ indent => indent
  | blockMap _ indent _ => indent
  | blockSequence _ indent _ => indent
  | flow _ indent _ _ => indent

def isBlockCollection : Outline → Bool
  | blockMap .. | blockSequence .. => true
  | _ => false

def isBlockSequence : Outline → Bool
  | blockSequence .. => true
  | _ => false

def isFlow : Outline → Bool
  | flow .. => true
  | _ => false

def isInline : Outline → Bool
  | leaf .. | flow .. => true
  | _ => false

def tail : Outline → Option (List Mark)
  | leaf _ tail => some tail
  | flow _ _ _ closing => some closing
  | _ => none

def extend (marks : List Mark) : Outline → Outline
  | leaf mark tail => leaf mark (tail ++ marks)
  | flow opening indent entries closing => flow opening indent entries (closing ++ marks)
  | other => other

end Outline

inductive StreamItem where
  | directive (text : Text)
  | document (offset : Nat) (start : List Mark) (content : Option Outline) (tail : List Mark)
  | documentEnd (tail : List Mark)
  deriving Repr

end LessonBook.Yaml
