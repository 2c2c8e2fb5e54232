import LessonBook.Text.Units

/-!
The lexemes of a YAML stream. Which lexeme comes next depends on the indentation
of the current block, on the depth of flow collections, and on whether a key may
just have ended. Lines end in newlines only.
-/

namespace LessonBook.Yaml

inductive LexemeKind where
  | byteOrderMark
  | documentMode
  | flowEnd
  | scalar
  | documentStart
  | documentEnd
  | newline
  | sequenceMark
  | keyMark
  | valueMark
  | mapOpen
  | mapClose
  | sequenceOpen
  | sequenceClose
  | comma
  | space
  | comment
  | directive
  | reference
  | anchor
  | tag
  | singleQuoted
  | doubleQuoted
  | blockHeader
  | unknown
  deriving DecidableEq, Repr

structure Lexeme where
  kind : LexemeKind
  text : Text
  deriving DecidableEq, Repr

namespace Lexeme

def kindOf (text : Text) : LexemeKind :=
  match text with
  | ['\uFEFF'] => .byteOrderMark
  | ['-', '-', '-'] => .documentStart
  | ['.', '.', '.'] => .documentEnd
  | [] | ['\n'] => .newline
  | ['-'] => .sequenceMark
  | ['?'] => .keyMark
  | [':'] => .valueMark
  | ['\x7b'] => .mapOpen
  | ['\x7d'] => .mapClose
  | ['['] => .sequenceOpen
  | [']'] => .sequenceClose
  | [','] => .comma
  | ' ' :: _ | '\t' :: _ => .space
  | '#' :: _ => .comment
  | '%' :: _ => .directive
  | '*' :: _ => .reference
  | '&' :: _ => .anchor
  | '!' :: _ => .tag
  | '\'' :: _ => .singleQuoted
  | '"' :: _ => .doubleQuoted
  | '|' :: _ | '>' :: _ => .blockHeader
  | _ => .unknown

end Lexeme

namespace LexemeReader

inductive Mode where
  | stream
  | document
  | flow
  deriving DecidableEq, Repr

/-- The place that is reached, and what is known of the text before. The
lexemes found so far stand last first. -/
structure State where
  position : Nat := 0
  nextIndent : Nat := 0
  indent : Nat := 0
  flowDepth : Nat := 0
  afterKey : Bool := false
  blockIndent : Option Nat := none
  keepBlanks : Bool := false
  found : List Lexeme := []
  deriving Repr

def isEmptyAt (source : Array Char) (index : Nat) : Bool :=
  match source[index]? with
  | none => true
  | some c => c == ' ' || c == '\n' || c == '\r' || c == '\t'

def isAt (source : Array Char) (index : Nat) (test : Char → Bool) : Bool :=
  match source[index]? with
  | none => false
  | some c => test c

def isFlowMark (c : Char) : Bool :=
  c == ',' || c == '[' || c == ']' || c == '\x7b' || c == '\x7d'

def slice (source : Array Char) (first last : Nat) : Text :=
  (source.extract first last).toList

def skipWhile (source : Array Char) (inClass : Char → Bool) : Nat → Nat → Nat
  | 0, index => index
  | fuel + 1, index =>
      if isAt source index inClass then skipWhile source inClass fuel (index + 1) else index

def skip (source : Array Char) (inClass : Char → Bool) (index : Nat) : Nat :=
  skipWhile source inClass (source.size - index) index

def lineEndAt (source : Array Char) (index : Nat) : Nat :=
  skip source (· != '\n') index

def newlineFrom? (source : Array Char) (index : Nat) : Option Nat :=
  let found := lineEndAt source index
  if found < source.size then some found else none

def pushTo (source : Array Char) (last : Nat) (state : State) : State :=
  if state.position < last then
    let text := slice source state.position last
    { state with position := last, found := ⟨Lexeme.kindOf text, text⟩ :: state.found }
  else state

def pushMark (kind : LexemeKind) (state : State) : State :=
  { state with found := ⟨kind, []⟩ :: state.found }

def pushScalar (source : Array Char) (last : Nat) (state : State) : State :=
  { state with
    position := max state.position last
    found := ⟨.scalar, slice source state.position last⟩ :: state.found }

def pushSpaces (source : Array Char) (tabs : Bool) (state : State) : State :=
  pushTo source (skip source (fun c => c == ' ' || (tabs && c == '\t')) state.position) state

def pushNewline (source : Array Char) (state : State) : State :=
  if isAt source state.position (· == '\n') then pushTo source (state.position + 1) state else state

def pushLine (source : Array Char) (state : State) : State :=
  pushTo source (lineEndAt source state.position) state

def isAnchorChar (c : Char) : Bool :=
  !(c == ' ' || isFlowMark c || c == '\n' || c == '\r' || c == '\t')

def isTagChar (c : Char) : Bool :=
  c.isAlphanum || "-#;/?:@&=+$_.!~*'()".toList.contains c

def isHexDigit (c : Char) : Bool :=
  c.isDigit || ('a' ≤ c && c ≤ 'f') || ('A' ≤ c && c ≤ 'F')

def tagEnd (source : Array Char) : Nat → Nat → Nat
  | 0, index => index
  | fuel + 1, index =>
      if isAt source index isTagChar then tagEnd source fuel (index + 1)
      else if isAt source index (· == '%') && isAt source (index + 1) isHexDigit &&
          isAt source (index + 2) isHexDigit then tagEnd source fuel (index + 3)
      else index

def pushTag (source : Array Char) (state : State) : State :=
  if isAt source (state.position + 1) (· == '<') then
    let last := skip source (fun c => !(c == '>' || c == ' ' || c == '\n' || c == '\r' || c == '\t'))
      (state.position + 2)
    pushTo source (if isAt source last (· == '>') then last + 1 else last) state
  else pushTo source (tagEnd source source.size (state.position + 1)) state

/-- Where a scalar goes on behind a newline: the index behind the indentation,
or none when the line is indented too little or is a document marker. -/
def continueScalar? (source : Array Char) (nextIndent index : Nat) : Option Nat :=
  if 0 < nextIndent then
    let last := skip source (· == ' ') index
    if isAt source last (· == '\n') || nextIndent ≤ last - index then some last else none
  else
    let marker := slice source index (index + 3)
    if (marker = ['-', '-', '-'] || marker = ['.', '.', '.']) && isEmptyAt source (index + 3) then
      none
    else some index

def pushProperties (source : Array Char) : Nat → State → State
  | 0, state => state
  | fuel + 1, state =>
      match source[state.position]? with
      | some '!' => pushProperties source fuel (pushSpaces source true (pushTag source state))
      | some '&' =>
          pushProperties source fuel (pushSpaces source true
            (pushTo source (skip source isAnchorChar state.position) state))
      | some c =>
          if (c == '-' || c == '?' || c == ':') &&
              (isEmptyAt source (state.position + 1) ||
                (0 < state.flowDepth && isAt source (state.position + 1) isFlowMark)) then
            let begun :=
              if state.flowDepth = 0 then { state with nextIndent := state.indent + 1 }
              else { state with afterKey := false }
            pushProperties source fuel
              (pushSpaces source true (pushTo source (begun.position + 1) begun))
          else state
      | none => state

def blockStart (source : Array Char) : Nat → State → State
  | 0, state => state
  | fuel + 1, state =>
      if isAt source state.position (fun c => c == '-' || c == '?' || c == ':') &&
          isEmptyAt source (state.position + 1) then
        let pushed := pushSpaces source true (pushTo source (state.position + 1) state)
        blockStart source fuel { pushed with
          nextIndent := state.indent + 1
          indent := state.indent + (pushed.position - state.position) }
      else state

def lineStart (source : Array Char) (state : State) : Mode × State :=
  let marker := slice source state.position (state.position + 3)
  if (marker = ['-', '-', '-'] || marker = ['.', '.', '.']) &&
      isEmptyAt source (state.position + 3) then
    let pushed := { pushTo source (state.position + 3) state with indent := 0, nextIndent := 0 }
    (if marker = ['-', '-', '-'] then .document else .stream, pushed)
  else
    let pushed := pushSpaces source false state
    let indent := pushed.position - state.position
    let next := if indent < state.nextIndent && !isEmptyAt source (pushed.position + 1) then indent
      else state.nextIndent
    (.document, blockStart source source.size { pushed with indent := indent, nextIndent := next })

def singleQuoteEnd? (source : Array Char) : Nat → Nat → Option Nat
  | 0, _ => none
  | fuel + 1, index =>
      let quote := skip source (· != '\'') index
      if source.size ≤ quote then none
      else if isAt source (quote + 1) (· == '\'') then singleQuoteEnd? source fuel (quote + 2)
      else some quote

def backslashesBefore (source : Array Char) : Nat → Nat
  | 0 => 0
  | index + 1 => if isAt source index (· == '\\') then backslashesBefore source index + 1 else 0

def doubleQuoteEnd? (source : Array Char) : Nat → Nat → Option Nat
  | 0, _ => none
  | fuel + 1, index =>
      let quote := skip source (· != '"') index
      if source.size ≤ quote then none
      else if backslashesBefore source quote % 2 = 0 then some quote
      else doubleQuoteEnd? source fuel (quote + 1)

/-- The first newline in front of `last` behind which a quoted scalar cannot go on. -/
def brokenLine? (source : Array Char) (nextIndent last : Nat) : Nat → Nat → Option Nat
  | 0, _ => none
  | fuel + 1, index =>
      match newlineFrom? source index with
      | none => none
      | some newline =>
          if last ≤ newline then none
          else match continueScalar? source nextIndent (newline + 1) with
            | none => some newline
            | some next => brokenLine? source nextIndent last fuel next

def modeAfterNode (state : State) : Mode :=
  if 0 < state.flowDepth then .flow else .document

def quotedScalar (source : Array Char) (state : State) : Mode × State :=
  let found := if isAt source state.position (· == '\'') then
      singleQuoteEnd? source source.size (state.position + 1)
    else doubleQuoteEnd? source source.size (state.position + 1)
  let last := match found with
    | none => source.size
    | some quote =>
        match brokenLine? source state.nextIndent quote source.size state.position with
        | some newline => newline
        | none => quote + 1
  (modeAfterNode state, pushTo source last state)

def blockSigns (source : Array Char) : Nat → Nat → State → State
  | 0, _, state => state
  | fuel + 1, index, state =>
      match source[index]? with
      | some c =>
          if c == '+' then blockSigns source fuel (index + 1) { state with keepBlanks := true }
          else if '0' < c && c ≤ '9' then
            blockSigns source fuel (index + 1) { state with blockIndent := some (c.toNat - 49) }
          else if c == '-' then blockSigns source fuel (index + 1) state
          else state
      | none => state

def blockHeader (source : Array Char) (state : State) : State :=
  let signed := blockSigns source source.size (state.position + 1)
    { state with blockIndent := none, keepBlanks := false }
  pushTo source
    (skip source (fun c => !(c == ' ' || c == '\n' || c == '\r' || c == '\t' || c == '#'))
      state.position) signed

/-- The first line of a block scalar that is not blank: the index behind the
last newline in front of it, and its indentation. -/
def firstBlockLine (source : Array Char) : Nat → Nat → Nat → Nat → Nat × Nat
  | 0, _, start, indent => (start, indent)
  | fuel + 1, index, start, indent =>
      match source[index]? with
      | some ' ' => firstBlockLine source fuel (index + 1) start (indent + 1)
      | some '\n' => firstBlockLine source fuel (index + 1) (index + 1) 0
      | _ => (start, indent)

def blockEnd (source : Array Char) (nextIndent : Nat) : Nat → Nat → Nat
  | 0, start => start
  | fuel + 1, start =>
      match continueScalar? source nextIndent start with
      | none => start
      | some next =>
          match newlineFrom? source next with
          | some newline => blockEnd source nextIndent fuel (newline + 1)
          | none => source.size + 1

/-- Drops blank lines from the end of a block scalar, unless they are indented
more than its first line. The scalar ends behind the newline before `last`. -/
def dropBlankEnd (source : Array Char) (first indent : Nat) : Nat → Nat → Nat
  | 0, last => last
  | fuel + 1, last =>
      -- `last - 1` is the index of the newline at the end
      let lineEnd := last - 1
      let rec spaces : Nat → Nat
        | 0 => 0
        | index + 1 => if isAt source index (· == ' ') then spaces index + 1 else 0
      let count := spaces lineEnd
      let lineStart := lineEnd - count
      if 0 < lineStart && isAt source (lineStart - 1) (· == '\n') && first ≤ lineStart - 1 &&
          lineEnd < lineStart + indent + 1 then
        dropBlankEnd source first indent fuel lineStart
      else last

def blockScalar (source : Array Char) (state : State) : Mode × State :=
  let (start, indent) := firstBlockLine source source.size state.position state.position 0
  let (next, last) :=
    if state.nextIndent ≤ indent then
      let next := match state.blockIndent with
        | none => indent
        | some extra => extra + (if state.nextIndent = 0 then 1 else state.nextIndent)
      (next, blockEnd source next source.size start)
    else (state.nextIndent, start)
  let afterSpaces := skip source (· == ' ') last
  let last :=
    if isAt source afterSpaces (· == '\t') then
      skip source (fun c => c == '\t' || c == ' ' || c == '\r' || c == '\n') afterSpaces
    else if state.keepBlanks then last
    else dropBlankEnd source state.position indent source.size last
  lineStart source (pushScalar source last { state with nextIndent := next })

def plainEnd (source : Array Char) (inFlow : Bool) (nextIndent : Nat) : Nat → Nat → Nat → Nat
  | 0, _, last => last
  | fuel + 1, index, last =>
      match source[index]? with
      | none => last
      | some c =>
          if c == ':' then
            if isEmptyAt source (index + 1) || (inFlow && isAt source (index + 1) isFlowMark) then last
            else plainEnd source inFlow nextIndent fuel (index + 1) (index + 1)
          else if c == ' ' || c == '\t' || c == '\n' || c == '\r' then
            let last := if c == '\r' then index + 1 else last
            if isAt source (index + 1) fun d => d == '#' || (inFlow && isFlowMark d) then last
            else if c == '\n' then
              match continueScalar? source nextIndent (index + 1) with
              | none => last
              | some next => plainEnd source inFlow nextIndent fuel (max (index + 1) (next - 1)) last
            else plainEnd source inFlow nextIndent fuel (index + 1) last
          else if inFlow && isFlowMark c then last
          else plainEnd source inFlow nextIndent fuel (index + 1) (index + 1)

def plainScalar (source : Array Char) (state : State) : Mode × State :=
  let last := plainEnd source (0 < state.flowDepth) state.nextIndent (source.size + 1)
    state.position state.position
  (modeAfterNode state, pushScalar source last state)

def stream (source : Array Char) (state : State) : Mode × State :=
  let state := if isAt source state.position (· == '\uFEFF') then
      pushTo source (state.position + 1) state
    else state
  let lineEnd := lineEndAt source state.position
  if isAt source state.position (· == '%') then
    let directive := slice source state.position lineEnd
    let commentAt := (List.range directive.length).find? fun index =>
      directive[index]? == some '#' && 0 < index &&
        (directive[index - 1]? == some ' ' || directive[index - 1]? == some '\t')
    let content := Text.dropEndWhile Text.isSpaceOrTab
      (directive.take ((commentAt.map (· - 1)).getD directive.length))
    let pushed := pushSpaces source true (pushTo source (state.position + content.length) state)
    (.stream, pushNewline source (pushLine source pushed))
  else
    let content := skip source (fun c => c == ' ' || c == '\t') state.position
    if source.size ≤ content || isAt source content fun c => c == '#' || c == '\n' then
      (.stream, pushNewline source (pushLine source (pushSpaces source true state)))
    else lineStart source (pushMark .documentMode state)

def document (source : Array Char) (state : State) : Mode × State :=
  let spaced := pushSpaces source true state
  let state := pushProperties source source.size spaced
  match source[state.position]? with
  | none => lineStart source state
  | some c =>
      if c == '\n' then lineStart source (pushNewline source state)
      else if c == '#' then lineStart source (pushNewline source (pushLine source state))
      else if c == '\x7b' || c == '[' then
        (.flow, { pushTo source (state.position + 1) state with afterKey := false, flowDepth := 1 })
      else if c == '\x7d' || c == ']' then (.document, pushTo source (state.position + 1) state)
      else if c == '*' then
        (.document, pushTo source (skip source isAnchorChar state.position) state)
      else if c == '"' || c == '\'' then quotedScalar source state
      else if c == '|' || c == '>' then
        blockScalar source (pushNewline source (pushLine source
          (pushSpaces source true (blockHeader source state))))
      else plainScalar source state

/-- Newlines and blanks in a flow collection. Answers with the indentation of
the last line that began here. -/
def flowSpace (source : Array Char) : Nat → Option Nat → State → Option Nat × State
  | 0, indent, state => (indent, state)
  | fuel + 1, indent, state =>
      let broken := pushNewline source state
      if state.position < broken.position then
        let indented := pushSpaces source false broken
        let width := indented.position - broken.position
        flowSpace source fuel (some width)
          (pushSpaces source true { indented with indent := width })
      else
        let spaced := pushSpaces source true state
        if state.position < spaced.position then flowSpace source fuel indent spaced
        else (indent, state)

def pushCommas (source : Array Char) : Nat → State → State
  | 0, state => state
  | fuel + 1, state =>
      if isAt source state.position (· == ',') then
        pushCommas source fuel
          { pushSpaces source true (pushTo source (state.position + 1) state) with afterKey := false }
      else state

/-- A line of a flow collection that is indented too little, or a document
marker, ends the collection; a closing bracket may stand one column to the left. -/
def endsFlow (source : Array Char) (indent : Option Nat) (state : State) : Bool :=
  match indent with
  | none => false
  | some width =>
      let marker := slice source state.position (state.position + 3)
      let tooLittle := width < state.nextIndent && !isAt source state.position (· == '#')
      let atMarker := width = 0 && (marker = ['-', '-', '-'] || marker = ['.', '.', '.']) &&
        isEmptyAt source (state.position + 3)
      let atClosing := width + 1 = state.nextIndent && state.flowDepth = 1 &&
        isAt source state.position fun c => c == ']' || c == '\x7d'
      (tooLittle || atMarker) && !atClosing

def flow (source : Array Char) (state : State) : Mode × State :=
  let (indent, spaced) := flowSpace source source.size none state
  if endsFlow source indent spaced then
    lineStart source (pushMark .flowEnd { spaced with flowDepth := 0 })
  else
    let state := pushProperties source source.size (pushCommas source source.size spaced)
    match source[state.position]? with
    | none => (.flow, state)
    | some c =>
        if c == '\n' then (.flow, state)
        else if c == '#' then (.flow, pushLine source state)
        else if c == '\x7b' || c == '[' then
          (.flow, { pushTo source (state.position + 1) state with
            afterKey := false, flowDepth := state.flowDepth + 1 })
        else if c == '\x7d' || c == ']' then
          let closed := { pushTo source (state.position + 1) state with
            afterKey := true, flowDepth := state.flowDepth - 1 }
          (modeAfterNode closed, closed)
        else if c == '*' then (.flow, pushTo source (skip source isAnchorChar state.position) state)
        else if c == '"' || c == '\'' then quotedScalar source { state with afterKey := true }
        else if c == ':' && (state.afterKey || isEmptyAt source (state.position + 1) ||
            isAt source (state.position + 1) (· == ',')) then
          (.flow, pushSpaces source true
            (pushTo source (state.position + 1) { state with afterKey := false }))
        else plainScalar source { state with afterKey := false }

/-- Scans until the text is used up. Two steps without progress do not follow
each other, which bounds `fuel`. -/
def scan (source : Array Char) : Nat → Mode → State → State
  | 0, _, state => state
  | fuel + 1, mode, state =>
      if source.size ≤ state.position then state
      else
        let (next, after) := match mode with
          | .stream => stream source state
          | .document => document source state
          | .flow => flow source state
        scan source fuel next after

end LexemeReader

def Lexeme.ofText (text : Text) : List Lexeme :=
  let source := text.toArray
  (LexemeReader.scan source (2 * source.size + 2) .stream {}).found.reverse

end LessonBook.Yaml
