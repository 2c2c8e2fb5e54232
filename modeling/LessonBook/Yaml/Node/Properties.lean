import LessonBook.Yaml.Outline.Basic

/-!
The marks in front of a node: its anchor and tag, the indicator of its entry,
and the blanks, newlines and comments between them. Misplaced marks, missing
blanks and tabs used as indentation are faults.
-/

namespace LessonBook.Yaml

/-- What follows the marks: whether it is a collection, and whether a property
in front of it needs a blank in between. -/
structure Following where
  isFlow : Bool := false
  isBlock : Bool := false
  touches : Bool := false

namespace Following

def ofMark (mark : Mark) : Following :=
  { touches := !(mark.kind = .space || mark.kind = .newline || mark.kind = .comma) }

def ofOutline : Outline → Following
  | .leaf mark _ => { touches := mark.kind ≠ .scalar || !mark.text.isEmpty }
  | .blockScalar .. => { touches := true }
  | .blockMap .. | .blockSequence .. => { isBlock := true, touches := true }
  | .flow .. => { isFlow := true, touches := true }

def ofEither (part : Option Outline) (marks : List Mark) : Following :=
  match part, marks with
  | some part, _ => ofOutline part
  | none, mark :: _ => ofMark mark
  | none, [] => {}

end Following

structure Setting where
  indicator : LexemeKind
  inFlow : Bool := false
  indent : Nat := 0
  atLineStart : Bool := false
  following : Following := {}

structure Properties where
  anchor : Option Mark := none
  tag : Option Mark := none
  indicator : Option Mark := none
  comma : Option Mark := none
  hasNewline : Bool := false
  newlineBehind : Option Mark := none
  deriving Repr

namespace Properties

structure Reading where
  properties : Properties := {}
  atLineStart : Bool
  afterSpace : Bool
  needsSpace : Bool := false
  tab : Option Mark := none

def hasProperty (properties : Properties) : Bool :=
  properties.anchor.isSome || properties.tag.isSome

/-- Tabs count as indentation except in flow collections and in front of a flow
collection that is a whole document. -/
def isTab (setting : Setting) (mark : Mark) : Bool :=
  !setting.inFlow && (setting.indicator ≠ .documentStart || !setting.following.isFlow) &&
    mark.text.contains '\t'

def separates : LexemeKind → Bool
  | .space | .newline | .comma => true
  | _ => false

def endsLine : LexemeKind → Bool
  | .comment | .newline => true
  | _ => false

def readMark (setting : Setting) (mark : Mark) (reading : Reading) : Option Reading :=
  let found := reading.properties
  if reading.needsSpace && !separates mark.kind then none
  else if reading.tab.isSome && reading.atLineStart && !endsLine mark.kind then none
  else
    let reading := { reading with needsSpace := false, tab := none }
    let used : Reading := { reading with atLineStart := false, afterSpace := false }
    match mark.kind with
    | .space =>
        some { reading with afterSpace := true, tab := if isTab setting mark then some mark else none }
    | .comment => if reading.afterSpace then some { reading with atLineStart := false } else none
    | .newline =>
        some { reading with
          atLineStart := true, afterSpace := true
          properties := { found with
            hasNewline := true
            newlineBehind := if found.hasProperty then some mark else found.newlineBehind } }
    | .anchor =>
        if found.anchor.isSome then none
        else some { used with needsSpace := true, properties := { found with anchor := some mark } }
    | .tag =>
        if found.tag.isSome then none
        else some { used with needsSpace := true, properties := { found with tag := some mark } }
    | .comma =>
        if setting.inFlow && found.comma.isNone then
          some { used with properties := { found with comma := some mark } }
        else none
    | kind =>
        if kind = setting.indicator && !found.hasProperty && found.indicator.isNone then
          some { used with
            atLineStart := kind = .sequenceMark || kind = .keyMark
            properties := { found with indicator := some mark } }
        else none

def read? (setting : Setting) (marks : List Mark) : Option Properties := do
  let reading ← marks.foldlM (fun reading mark => readMark setting mark reading)
    ({ atLineStart := setting.atLineStart, afterSpace := setting.atLineStart } : Reading)
  let badTab := reading.tab.any fun tab =>
    (reading.atLineStart && tab.indent ≤ setting.indent) || setting.following.isBlock
  if (reading.needsSpace && setting.following.touches) || badTab then none
  else some reading.properties

def startOf (properties : Properties) (marks : List Mark) (fallback : Nat) : Nat :=
  let first := match properties.anchor, properties.tag with
    | some anchor, some tag => some (min anchor.offset tag.offset)
    | some anchor, none => some anchor.offset
    | none, some tag => some tag.offset
    | none, none => none
  match first, marks.getLast? with
  | some offset, _ => offset
  | none, some mark => mark.finish
  | none, none => fallback

end Properties

/-- Behind a node there are only blanks, newlines and comments; where it matters,
a comment has a blank in front. -/
def tailFits (strict : Bool) (afterSpace : Bool) : List Mark → Bool
  | [] => true
  | mark :: rest =>
      match mark.kind with
      | .space | .newline => tailFits strict true rest
      | .comment => (afterSpace || !strict) && tailFits strict afterSpace rest
      | _ => false

end LessonBook.Yaml
