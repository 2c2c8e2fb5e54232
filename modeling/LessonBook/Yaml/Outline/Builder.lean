import LessonBook.Yaml.Outline.Basic

/-!
Builds the outline of a stream lexeme by lexeme. The open parts form a stack; a
lexeme either goes into the innermost one, opens a part inside it, or closes it
and is tried again on the part around it. There is no outline when a lexeme
fits nowhere.
-/

namespace LessonBook.Yaml

inductive Ground where
  | stream
  | document (offset : Nat) (start : List Mark) (content : Option Outline) (tail : List Mark)
  | documentEnd (tail : List Mark)
  deriving Repr

/-- Items and open parts stand last first, and so do the entries of open parts.
`onKeyLine` tells that a key stands on the current line. -/
structure Builder where
  items : List StreamItem := []
  ground : Ground := .stream
  frames : List Outline := []
  offset : Nat := 0
  indent : Nat := 0
  atLineStart : Bool := true
  onKeyLine : Bool := false
  deriving Repr

namespace Builder

/-- In a flow sequence, a key without a colon behind it is a value. -/
def asValue (entry : Entry Outline) : Entry Outline :=
  match entry.gap, entry.value with
  | some gap, none =>
      if Mark.anyOf .keyMark entry.start || Mark.anyOf .valueMark gap then entry
      else match entry.key with
        | some key =>
            if key.isInline then
              { entry with key := none, gap := none, value := some (key.extend gap) }
            else { entry with start := entry.start ++ gap, key := none, gap := none, value := some key }
        | none => { entry with start := entry.start ++ gap, gap := none }
  | _, _ => entry

def close : Outline → Outline
  | .blockMap offset indent entries => .blockMap offset indent entries.reverse
  | .blockSequence offset indent entries => .blockSequence offset indent entries.reverse
  | .flow opening indent entries closing =>
      let entries := if opening.kind = .sequenceOpen then entries.map asValue else entries
      .flow opening indent entries.reverse closing
  | other => other

/-- A block scalar counts from the indentation of the part around it, and a flow
collection that is a whole document from zero. -/
def placeIn (parent : Option Outline) : Outline → Outline
  | .blockScalar header body _ => .blockScalar header body ((parent.map Outline.indent).getD 0)
  | .flow opening indent entries closing =>
      .flow opening (if parent.isNone then 0 else indent) entries closing
  | other => other

/-- Cuts an entry of blanks and comments from the end of an open block
collection, if it may as well stand behind the collection. -/
def cutTrailing (indent : Nat) : List (Entry Outline) → List (Entry Outline) × Option (List Mark)
  | [] => ([], none)
  | last :: earlier =>
      if last.gap.isNone && last.value.isNone && !last.start.isEmpty &&
          last.start.all Mark.isEmpty &&
          (indent = 0 || last.start.all fun mark => mark.kind ≠ .comment || mark.indent < indent) then
        (earlier, some last.start)
      else (last :: earlier, none)

def splitTrailing : Outline → Outline × Option (List Mark)
  | .blockMap offset indent entries =>
      let (kept, cut) := cutTrailing indent entries
      (.blockMap offset indent kept, cut)
  | .blockSequence offset indent entries =>
      let (kept, cut) := cutTrailing indent entries
      (.blockSequence offset indent kept, cut)
  | other => (other, none)

def addTrailing (cut : Option (List Mark)) (entries : List (Entry Outline)) : List (Entry Outline) :=
  match cut with
  | some marks => { start := marks } :: entries
  | none => entries

/-- Hands a finished part to the open part around it. Answers also with whether
a key has just ended on this line, if that is decided here. -/
def attach (part : Outline) : Outline → Option (Outline × Option Bool)
  | .blockMap offset indent (last :: earlier) =>
      if last.value.isSome then
        some (.blockMap offset indent
          ({ key := some (close part), gap := some [] } :: last :: earlier), some true)
      else if last.gap.isSome then
        let (kept, cut) := splitTrailing part
        some (.blockMap offset indent
          (addTrailing cut ({ last with value := some (close kept) } :: earlier)), none)
      else
        some (.blockMap offset indent
          ({ last with key := some (close part), gap := some [] } :: earlier),
          some !last.isExplicit)
  | .blockSequence offset indent (last :: earlier) =>
      let (kept, cut) := splitTrailing part
      let entries := if last.value.isSome then { value := some (close kept) } :: last :: earlier
        else { last with value := some (close kept) } :: earlier
      some (.blockSequence offset indent (addTrailing cut entries), none)
  | .flow opening indent entries closing =>
      let fresh : Entry Outline := { key := some (close part), gap := some [] }
      let entries := match entries with
        | [] => [fresh]
        | last :: earlier =>
            if last.value.isSome then fresh :: last :: earlier
            else if last.gap.isSome then { last with value := some (close part) } :: earlier
            else { last with key := some (close part), gap := some [] } :: earlier
      some (.flow opening indent entries closing, none)
  | _ => none

def pop (builder : Builder) : Option Builder :=
  match builder.frames with
  | [] =>
      match builder.ground with
      | .stream => none
      | .document offset start content tail =>
          some { builder with
            ground := .stream, items := .document offset start content tail :: builder.items }
      | .documentEnd tail =>
          some { builder with ground := .stream, items := .documentEnd tail :: builder.items }
  | [part] =>
      match builder.ground with
      | .document offset start _ tail =>
          let (kept, cut) := splitTrailing (placeIn none part)
          some { builder with
            frames := [], ground := .document offset start (some (close kept)) (cut.getD tail) }
      | _ => none
  | part :: parent :: outer => do
      let (filled, keyLine) ← attach (placeIn (some parent) part) parent
      some { builder with
        frames := filled :: outer, onKeyLine := keyLine.getD builder.onKeyLine }

def popAll : Nat → Builder → Option Builder
  | 0, _ => none
  | fuel + 1, builder =>
      match builder.frames, builder.ground with
      | [], .stream => some builder
      | _, _ => (pop builder).bind (popAll fuel)

def closeAll (builder : Builder) : Option Builder :=
  popAll (builder.frames.length + 2) builder

def endsKeyStart : LexemeKind → Bool
  | .documentStart | .keyMark | .valueMark | .sequenceMark | .newline => true
  | _ => false

/-- Splits marks in front of those that belong to a key which follows them on its line. -/
def splitKeyStart (marks : List Mark) : List Mark × List Mark :=
  let line := (marks.reverse.takeWhile fun mark => !endsKeyStart mark.kind).reverse
  let taken := line.dropWhile (·.kind = .space)
  (marks.take (marks.length - taken.length), taken)

def takeStart (ground : Ground) : List Outline → List Mark × Ground × List Outline
  | [] =>
      match ground with
      | .document offset start content tail =>
          let (kept, taken) := splitKeyStart start
          (taken, .document offset kept content tail, [])
      | other => ([], other, [])
  | .blockMap offset indent (last :: earlier) :: outer =>
      match last.gap with
      | some gap =>
          let (kept, taken) := splitKeyStart gap
          (taken, ground, .blockMap offset indent ({ last with gap := some kept } :: earlier) :: outer)
      | none =>
          let (kept, taken) := splitKeyStart last.start
          (taken, ground, .blockMap offset indent ({ last with start := kept } :: earlier) :: outer)
  | .blockSequence offset indent (last :: earlier) :: outer =>
      let (kept, taken) := splitKeyStart last.start
      (taken, ground, .blockSequence offset indent ({ last with start := kept } :: earlier) :: outer)
  | frames => ([], ground, frames)

def opened? (mark : Mark) : Option Outline :=
  match mark.kind with
  | .reference | .scalar | .singleQuoted | .doubleQuoted => some (.leaf mark [])
  | .blockHeader => some (.blockScalar [mark] [] mark.indent)
  | .mapOpen | .sequenceOpen => some (.flow mark mark.indent [] [])
  | .sequenceMark => some (.blockSequence mark.offset mark.indent [{ start := [mark] }])
  | _ => none

def openPart (part : Outline) (builder : Builder) : Builder :=
  { builder with frames := part :: builder.frames }

/-- Opens the part that a mark begins. A key or value mark begins a block map. -/
def open? (mark : Mark) (builder : Builder) : Option Builder :=
  let (start, ground, frames) := takeStart builder.ground builder.frames
  let map (entry : Entry Outline) : Builder :=
    { builder with
      ground, onKeyLine := true, frames := .blockMap mark.offset mark.indent [entry] :: frames }
  match mark.kind with
  | .keyMark => some (map { start := start ++ [mark], isExplicit := true })
  | .valueMark => some (map { start, gap := some [mark] })
  | _ => (opened? mark).map (openPart · builder)

/-- What became of a mark: it was used, or the innermost part was closed and the
mark is to be tried again. -/
inductive Outcome where
  | used (builder : Builder)
  | again (builder : Builder)

abbrev Attempt := Option Outcome

def use (builder : Builder) : Attempt :=
  some (.used builder)

def closeAndTry (builder : Builder) : Attempt :=
  builder.pop.map .again

def closeAndUse (builder : Builder) : Attempt :=
  builder.pop.map .used

def onStream (mark : Mark) (builder : Builder) : Attempt :=
  match mark.kind with
  | .directive => use { builder with items := .directive mark.text :: builder.items }
  | .byteOrderMark | .space | .comment | .newline => use builder
  | .documentMode => use { builder with ground := .document mark.offset [] none [] }
  | .documentStart => use { builder with ground := .document mark.offset [mark] none [] }
  | _ => none

def endsTail : LexemeKind → Bool
  | .comma | .documentStart | .documentEnd | .sequenceClose | .mapClose | .valueMark => true
  | _ => false

def inTail (mark : Mark) (add : Builder → Builder) (builder : Builder) : Attempt :=
  if endsTail mark.kind then closeAndTry builder
  else if mark.kind = .newline then closeAndUse (add { builder with onKeyLine := false })
  else use (add builder)

def onDocument (mark : Mark) (offset : Nat) (start : List Mark) (content : Option Outline)
    (tail : List Mark) (builder : Builder) : Attempt :=
  let started : Builder :=
    { builder with ground := .document offset (start ++ [mark]) content tail }
  if content.isSome then
    inTail mark (fun b => { b with ground := .document offset start content (tail ++ [mark]) }) builder
  else
    match mark.kind with
    | .documentStart => if start.all Mark.isEmpty then use started else closeAndTry builder
    | .anchor | .tag | .space | .comment | .newline => use started
    | _ => (open? mark builder).map .used

def onDocumentEnd (mark : Mark) (tail : List Mark) (builder : Builder) : Attempt :=
  let added : Builder := { builder with ground := .documentEnd (tail ++ [mark]) }
  match mark.kind with
  | .documentMode => use builder
  | .newline => closeAndUse added
  | _ => use added

/-- A colon behind a scalar makes it the first key of a block map. -/
def onLeaf (mark : Mark) (leaf : Mark) (tail : List Mark) (outer : List Outline)
    (builder : Builder) : Attempt :=
  if mark.kind = .valueMark then
    let (start, ground, frames) := takeStart builder.ground outer
    let entry : Entry Outline :=
      { start, key := some (.leaf leaf []), gap := some (tail ++ [mark]) }
    use { builder with
      ground, onKeyLine := true, frames := .blockMap leaf.offset leaf.indent [entry] :: frames }
  else inTail mark (fun b => { b with frames := .leaf leaf (tail ++ [mark]) :: outer }) builder

def onBlockScalar (mark : Mark) (header : List Mark) (body : Text) (indent : Nat)
    (outer : List Outline) (builder : Builder) : Attempt :=
  match mark.kind with
  | .space | .comment | .newline =>
      use { builder with frames := .blockScalar (header ++ [mark]) body indent :: outer }
  | .scalar =>
      closeAndUse { builder with
        frames := .blockScalar header mark.text indent :: outer, atLineStart := true, indent := 0 }
  | _ => closeAndTry builder

/-- An indented comment, below an entry that is complete, belongs to its value. -/
def isIndentedComment (mark : Mark) (start : List Mark) (indent : Nat) : Bool :=
  mark.kind = .comment && indent < mark.indent &&
    start.all fun other => other.kind = .newline || other.kind = .space

def endsInComment (part : Outline) : Bool :=
  match part.tail.bind List.getLast? with
  | some mark => mark.kind = .comment
  | none => false

def addEmpty (mark : Mark) (indent : Nat) (last : Entry Outline) (earlier : List (Entry Outline)) :
    List (Entry Outline) :=
  match last.value with
  | some value =>
      if mark.kind = .newline && endsInComment value then
        { last with value := some (value.extend [mark]) } :: earlier
      else { start := [mark] } :: last :: earlier
  | none =>
      match last.gap with
      | some gap => { last with gap := some (gap ++ [mark]) } :: earlier
      | none =>
          let added := { last with start := last.start ++ [mark] } :: earlier
          if isIndentedComment mark last.start indent then
            match earlier with
            | previous :: older =>
                match previous.value with
                | some value =>
                    if value.isInline then
                      { previous with value := some (value.extend (last.start ++ [mark])) } :: older
                    else added
                | none => added
            | [] => added
          else added

def secondNewline? (indent : Nat) : Nat → List Nat → List Mark → Option Nat
  | _, found, [] => found.reverse[1]?
  | index, found, mark :: marks =>
      match mark.kind with
      | .newline => secondNewline? indent (index + 1) (index :: found) marks
      | .space => secondNewline? indent (index + 1) found marks
      | .comment =>
          secondNewline? indent (index + 1) (if indent < mark.indent then [] else found) marks
      | _ => secondNewline? indent (index + 1) [] marks

/-- The marks behind a key without a value that stand below it belong to the next entry. -/
def splitGap (indent : Nat) (gap : List Mark) : List Mark × List Mark :=
  match secondNewline? indent 0 [] gap with
  | some index => (gap.take index, gap.drop index)
  | none => (gap, [])

/-- The place of a mark in a block map: its offset, the open parts around the
map, and the last entry with those before it. -/
structure MapPlace where
  offset : Nat
  indent : Nat
  last : Entry Outline
  earlier : List (Entry Outline)
  outer : List Outline

namespace MapPlace

def fill (place : MapPlace) (entries : List (Entry Outline)) (builder : Builder) : Builder :=
  { builder with frames := .blockMap place.offset place.indent entries :: place.outer }

def replaceLast (place : MapPlace) (last : Entry Outline) (builder : Builder) : Builder :=
  place.fill (last :: place.earlier) builder

def add (place : MapPlace) (entry : Entry Outline) (builder : Builder) : Builder :=
  place.fill (entry :: place.last :: place.earlier) builder

end MapPlace

def mapFrom (mark : Mark) (entry : Entry Outline) : Outline :=
  .blockMap mark.offset mark.indent [entry]

def onMapKeyMark (mark : Mark) (place : MapPlace) (start : List Mark) (atNext : Bool)
    (builder : Builder) : Builder :=
  let last := place.last
  let onKey := { builder with onKeyLine := true }
  if last.gap.isNone && !last.isExplicit then
    place.replaceLast { last with start := last.start ++ [mark], isExplicit := true } onKey
  else if atNext || last.value.isSome then
    place.add { start := start ++ [mark], isExplicit := true } onKey
  else
    openPart (mapFrom mark { start := [mark], isExplicit := true }) (place.replaceLast last onKey)

def onExplicitValueMark (mark : Mark) (place : MapPlace) (start : List Mark)
    (builder : Builder) : Builder :=
  let last := place.last
  match last.gap with
  | none =>
      if Mark.anyOf .newline last.start then
        place.replaceLast { last with key := none, gap := some [mark] } builder
      else
        let (kept, taken) := splitKeyStart last.start
        openPart (mapFrom mark { start := taken, gap := some [mark] })
          (place.replaceLast { last with start := kept } builder)
  | some gap =>
      if last.value.isSome then place.add { gap := some [mark] } builder
      else if Mark.anyOf .valueMark gap then
        openPart (mapFrom mark { start, gap := some [mark] }) (place.replaceLast last builder)
      else
        match last.key with
        | some key =>
            if key.isInline && !Mark.anyOf .newline gap then
              let (kept, taken) := splitKeyStart last.start
              openPart (mapFrom mark { start := taken, key := some key, gap := some (gap ++ [mark]) })
                (place.replaceLast { last with start := kept, key := none, gap := none } builder)
            else place.replaceLast { last with gap := some (gap ++ start ++ [mark]) } builder
        | none => place.replaceLast { last with gap := some (gap ++ start ++ [mark]) } builder

def onMapValueMark (mark : Mark) (place : MapPlace) (start : List Mark) (atNext : Bool)
    (builder : Builder) : Builder :=
  let last := place.last
  let onKey := { builder with onKeyLine := true }
  if last.isExplicit then onExplicitValueMark mark place start onKey
  else
    match last.gap with
    | none => place.replaceLast { last with key := none, gap := some [mark] } onKey
    | some gap =>
        if last.value.isSome || atNext then place.add { start, gap := some [mark] } onKey
        else if Mark.anyOf .valueMark gap then
          openPart (mapFrom mark { gap := some [mark] }) (place.replaceLast last onKey)
        else place.replaceLast { last with gap := some (gap ++ [mark]) } onKey

def onMapScalar (mark : Mark) (place : MapPlace) (start : List Mark) (atNext : Bool)
    (builder : Builder) : Builder :=
  let last := place.last
  let leaf : Outline := .leaf mark []
  if atNext || last.value.isSome then
    place.add { start, key := some leaf, gap := some [] } { builder with onKeyLine := true }
  else if last.gap.isSome then openPart leaf (place.replaceLast last builder)
  else
    place.replaceLast { last with key := some leaf, gap := some [] }
      { builder with onKeyLine := true }

def onMapProperty (mark : Mark) (place : MapPlace) (start : List Mark) (atNext : Bool)
    (builder : Builder) : Builder :=
  let last := place.last
  if atNext || last.value.isSome then
    place.add { start := start ++ [mark] } { builder with onKeyLine := true }
  else
    match last.gap with
    | some gap => place.replaceLast { last with gap := some (gap ++ [mark]) } builder
    | none => place.replaceLast { last with start := last.start ++ [mark] } builder

/-- Opens a block scalar or another collection in a block map. A block sequence
cannot begin on the line of its key. -/
def onMapPart (mark : Mark) (place : MapPlace) (start : List Mark) (atMapIndent : Bool)
    (builder : Builder) : Attempt :=
  let last := place.last
  match opened? mark with
  | none => closeAndTry (place.replaceLast last builder)
  | some part =>
      if part.isBlockSequence then
        if !last.isExplicit && (last.gap.any fun gap => !Mark.anyOf .newline gap) then none
        else use (openPart part (place.replaceLast last builder))
      else if atMapIndent then use (openPart part (place.add { start } builder))
      else use (openPart part (place.replaceLast last builder))

def onBlockMap (mark : Mark) (place : MapPlace) (builder : Builder) : Attempt :=
  if Mark.isEmpty mark then
    let builder := if mark.kind = .newline then { builder with onKeyLine := false } else builder
    use (place.fill (addEmpty mark place.indent place.last place.earlier) builder)
  else if mark.indent < place.indent then closeAndTry builder
  else
    let last := place.last
    let atMapIndent := !builder.onKeyLine && mark.indent = place.indent
    let atNext := atMapIndent && (last.gap.isSome || last.isExplicit) && mark.kind ≠ .sequenceMark
    let (last, start) := match last.gap with
      | some gap =>
          if atNext && last.value.isNone then
            let (kept, start) := splitGap place.indent gap
            ({ last with gap := some kept }, start)
          else (last, [])
      | none => (last, [])
    let place := { place with last }
    match mark.kind with
    | .anchor | .tag => use (onMapProperty mark place start atNext builder)
    | .keyMark => use (onMapKeyMark mark place start atNext builder)
    | .valueMark => use (onMapValueMark mark place start atNext builder)
    | .reference | .scalar | .singleQuoted | .doubleQuoted =>
        use (onMapScalar mark place start atNext builder)
    | _ => onMapPart mark place start atMapIndent builder

def onBlockSequence (mark : Mark) (offset indent : Nat) (last : Entry Outline)
    (earlier : List (Entry Outline)) (outer : List Outline) (builder : Builder) : Attempt :=
  let fill (entries : List (Entry Outline)) : Builder :=
    { builder with frames := .blockSequence offset indent entries :: outer }
  let added := fill ({ last with start := last.start ++ [mark] } :: earlier)
  let descend : Attempt :=
    if indent < mark.indent then
      match open? mark builder with
      | some inner => use inner
      | none => closeAndTry builder
    else closeAndTry builder
  match mark.kind with
  | .newline | .space | .comment => use (fill (addEmpty mark indent last earlier))
  | .anchor | .tag =>
      if last.value.isSome || mark.indent ≤ indent then descend else use added
  | .sequenceMark =>
      if mark.indent ≠ indent then descend
      else if last.value.isSome || Mark.anyOf .sequenceMark last.start then
        use (fill ({ start := [mark] } :: last :: earlier))
      else use added
  | _ => descend

def closeFlows : Nat → Builder → Option Builder
  | 0, _ => none
  | fuel + 1, builder => do
      let closed ← builder.pop
      match closed.frames with
      | .flow .. :: _ => closeFlows fuel closed
      | _ => some closed

def onOpenFlow (mark : Mark) (opening : Mark) (indent : Nat) (entries : List (Entry Outline))
    (outer : List Outline) (builder : Builder) : Attempt :=
  let fill (entries : List (Entry Outline)) : Builder :=
    { builder with frames := .flow opening indent entries [] :: outer }
  let fresh (entry : Entry Outline) : Attempt := use (fill (entry :: entries))
  match mark.kind with
  | .comma | .keyMark =>
      match entries with
      | last :: earlier =>
          if last.gap.isSome then fresh { start := [mark] }
          else use (fill ({ last with start := last.start ++ [mark] } :: earlier))
      | [] => fresh { start := [mark] }
  | .valueMark =>
      match entries with
      | last :: earlier =>
          if last.value.isSome then fresh { gap := some [mark] }
          else match last.gap with
            | some gap => use (fill ({ last with gap := some (gap ++ [mark]) } :: earlier))
            | none => use (fill ({ last with key := none, gap := some [mark] } :: earlier))
      | [] => fresh { gap := some [mark] }
  | .space | .comment | .newline | .anchor | .tag =>
      match entries with
      | last :: earlier =>
          if last.value.isSome then fresh { start := [mark] }
          else match last.gap with
            | some gap => use (fill ({ last with gap := some (gap ++ [mark]) } :: earlier))
            | none => use (fill ({ last with start := last.start ++ [mark] } :: earlier))
      | [] => fresh { start := [mark] }
  | .reference | .scalar | .singleQuoted | .doubleQuoted =>
      let leaf : Outline := .leaf mark []
      match entries with
      | last :: earlier =>
          if last.value.isSome then fresh { key := some leaf, gap := some [] }
          else if last.gap.isSome then use (openPart leaf builder)
          else use (fill ({ last with key := some leaf, gap := some [] } :: earlier))
      | [] => fresh { key := some leaf, gap := some [] }
  | .mapClose | .sequenceClose =>
      use { builder with frames := .flow opening indent entries [mark] :: outer }
  | _ =>
      match open? mark builder with
      | some inner => use inner
      | none => closeAndTry builder

/-- Whether a mark behind the brackets of a flow collection goes to the block map
around it. -/
def endsFlowIn (mark : Mark) (indent : Nat) : Option Outline → Bool
  | some (.blockMap _ outerIndent (last :: _)) =>
      (mark.kind = .valueMark && outerIndent = indent) || (mark.kind = .newline && last.gap.isNone)
  | _ => false

/-- A mark behind the brackets of a flow collection. A colon makes it a key. -/
def onClosedFlow (mark : Mark) (opening : Mark) (indent : Nat) (entries : List (Entry Outline))
    (closing : List Mark) (outer : List Outline) (builder : Builder) : Attempt :=
  let parent := outer.head?
  if endsFlowIn mark indent parent then closeAndTry builder
  else if mark.kind = .valueMark && !(parent.any Outline.isFlow) then
    let (start, ground, frames) := takeStart builder.ground outer
    let key := close (.flow opening indent entries (closing.take 1))
    let entry : Entry Outline := { start, key := some key, gap := some (closing.drop 1 ++ [mark]) }
    use { builder with
      ground, onKeyLine := true, frames := .blockMap opening.offset indent [entry] :: frames }
  else
    inTail mark (fun b => { b with frames := .flow opening indent entries (closing ++ [mark]) :: outer })
      builder

def onFlow (mark : Mark) (opening : Mark) (indent : Nat) (entries : List (Entry Outline))
    (closing : List Mark) (outer : List Outline) (builder : Builder) : Attempt :=
  if mark.kind = .flowEnd then (closeFlows (outer.length + 1) builder).map .used
  else if closing.isEmpty then onOpenFlow mark opening indent entries outer builder
  else onClosedFlow mark opening indent entries closing outer builder

def onInnermost (mark : Mark) (builder : Builder) : Attempt :=
  match builder.frames with
  | [] =>
      match builder.ground with
      | .stream => onStream mark builder
      | .document offset start content tail => onDocument mark offset start content tail builder
      | .documentEnd tail => onDocumentEnd mark tail builder
  | .leaf leaf tail :: outer => onLeaf mark leaf tail outer builder
  | .blockScalar header body indent :: outer => onBlockScalar mark header body indent outer builder
  | .blockMap offset indent (last :: earlier) :: outer =>
      onBlockMap mark ⟨offset, indent, last, earlier, outer⟩ builder
  | .blockSequence offset indent (last :: earlier) :: outer =>
      onBlockSequence mark offset indent last earlier outer builder
  | .flow opening indent entries closing :: outer =>
      onFlow mark opening indent entries closing outer builder
  | _ :: _ => none

def isAfterDocument (builder : Builder) : Bool :=
  match builder.frames, builder.ground with
  | [], .documentEnd _ => true
  | _, _ => false

/-- Tries the mark on the innermost part until it is used. Every further try
comes after a part was closed, which bounds `fuel`. -/
def place (mark : Mark) : Nat → Builder → Option Builder
  | 0, _ => none
  | fuel + 1, builder =>
      match onInnermost mark builder with
      | none => none
      | some (.used next) => some next
      | some (.again next) => place mark fuel next

def addMark (mark : Mark) (builder : Builder) : Option Builder :=
  if mark.kind = .documentEnd && !builder.isAfterDocument then do
    let closed ← closeAll builder
    some { closed with ground := .documentEnd [] }
  else place mark (builder.frames.length + 3) builder

def next (lexeme : Lexeme) (builder : Builder) : Option Builder :=
  let mark : Mark := { toLexeme := lexeme, offset := builder.offset, indent := builder.indent }
  let size := lexeme.text.units
  match lexeme.kind with
  | .unknown => none
  | .scalar => do
      let added ← addMark mark { builder with atLineStart := false }
      some { added with offset := added.offset + size }
  | kind => do
      let added ← addMark mark builder
      match kind with
      | .newline =>
          some { added with atLineStart := true, indent := 0, offset := added.offset + size }
      | .space =>
          let inner := added.atLineStart && lexeme.text.head? = some ' '
          some { added with
            indent := if inner then added.indent + size else added.indent
            offset := added.offset + size }
      | .keyMark | .valueMark | .sequenceMark =>
          some { added with
            indent := if added.atLineStart then added.indent + size else added.indent
            offset := added.offset + size }
      | .documentMode | .flowEnd => some added
      | _ => some { added with atLineStart := false, offset := added.offset + size }

end Builder

def StreamItem.ofText? (text : Text) : Option (List StreamItem) := do
  let builder ← (Lexeme.ofText text).foldlM (fun builder lexeme => Builder.next lexeme builder)
    ({} : Builder)
  let closed ← builder.closeAll
  some closed.items.reverse

end LessonBook.Yaml
