import LessonBook.Json.Printer
import LessonBook.Yaml.Fold
import LessonBook.Yaml.Schema

/-!
The written form of strings: plain where nothing else could be meant, in quotes,
or as a block of lines.
-/

namespace LessonBook.Yaml

open Text

/-- Where a node is written: the schema of its document, the indentation of further
lines, whether a flow collection surrounds it, whether it is a key on one line with
its value, and the width of what stands on its first line, if that is known. -/
structure Place where
  schema : Schema := .core
  indent : Nat := 0
  inFlow : Bool := false
  isKey : Bool := false
  startWidth : Option Nat := none

namespace ScalarPrinter

def indentText (place : Place) : Text :=
  List.replicate place.indent ' '

def afterBreaks (insert : Text) : Text → Text
  | [] => []
  | c :: rest =>
      if c == '\n' && rest.head? != some '\n' then c :: insert ++ afterBreaks insert rest
      else c :: afterBreaks insert rest

def beforeBreaks (insert : Text) (atBreak : Bool) : Text → Text
  | [] => []
  | c :: rest =>
      if c == '\n' then
        if atBreak then c :: beforeBreaks insert true rest
        else insert ++ c :: beforeBreaks insert true rest
      else c :: beforeBreaks insert false rest

/-- As `afterBreaks`, but not behind newlines at the end. -/
def afterInnerBreaks (insert : Text) (text : Text) : Text :=
  let trailing := (text.reverse.takeWhile (· == '\n')).reverse
  afterBreaks insert (text.take (text.length - trailing.length)) ++ trailing

/-! ### Double quotes -/

/-- A text in double quotes with at least this many units is broken at its newlines. -/
def multiLineLength : Nat := 40

def isHexZero (a b : Char) : Bool :=
  a == '0' && b == '0'

def controlEscape (a b c d : Char) : Text :=
  if isHexZero a b then
    match c, d with
    | '0', '0' => ['\\', '0']
    | '0', '7' => ['\\', 'a']
    | '0', 'b' => ['\\', 'v']
    | '1', 'b' => ['\\', 'e']
    | _, _ => ['\\', 'x', c, d]
  else ['\\', 'u', a, b, c, d]

def passNewlines : Text → Nat × Text
  | '\\' :: 'n' :: rest =>
      if rest.head? = some '"' then (0, '\\' :: 'n' :: rest)
      else
        let (count, after) := passNewlines rest
        (count + 1, after)
  | text => (0, text)

/-- Respells a quoted text: control characters get short escapes, and where lines
may be broken, newlines become line breaks. A blank next to a break is escaped. -/
def requote (broken : Bool) (indent : Text) : Nat → Text → Text
  | 0, text => text
  | fuel + 1, text =>
      let newline (rest : Text) : Text :=
        if !broken || rest.head? = some '"' then '\\' :: 'n' :: requote broken indent fuel rest
        else
          let (count, after) := passNewlines rest
          '\n' :: '\n' :: List.replicate count '\n' ++ indent ++
            (if after.head? = some ' ' then ['\\'] else []) ++ requote broken indent fuel after
      match text with
      | ' ' :: '\\' :: 'n' :: rest => '\\' :: ' ' :: newline rest
      | '\\' :: 'n' :: rest => newline rest
      | '\\' :: 'u' :: a :: b :: c :: d :: rest =>
          controlEscape a b c d ++ requote broken indent fuel rest
      | '\\' :: c :: rest => '\\' :: c :: requote broken indent fuel rest
      | c :: rest => c :: requote broken indent fuel rest
      | [] => []

def doubleQuoted (place : Place) (value : Text) : Text :=
  let quoted := Json.quote value
  let broken := !place.isKey && multiLineLength ≤ quoted.units
  let written := requote broken (indentText place) quoted.length quoted
  if place.isKey then written
  else (Fold.fold .quoted place.indent place.startWidth written).1

/-! ### Single quotes -/

def blankAtBreak : Text → Bool
  | [] => false
  | c :: rest =>
      (match rest.head? with
        | some d => (isSpaceOrTab c && d == '\n') || (c == '\n' && isSpaceOrTab d)
        | none => false) || blankAtBreak rest

def singleQuoted (place : Place) (value : Text) : Text :=
  if (place.isKey && value.contains '\n') || blankAtBreak value then doubleQuoted place value
  else
    let doubled := value.flatMap fun c => if c == '\'' then ['\'', '\''] else [c]
    let written := '\'' :: afterBreaks ('\n' :: indentText place) doubled ++ ['\'']
    if place.isKey then written
    else (Fold.fold .flow place.indent place.startWidth written).1

/-- Single quotes are used for a text with double but no single quotes in it. -/
def quoted (place : Place) (value : Text) : Text :=
  if value.contains '"' && !value.contains '\'' then singleQuoted place value
  else doubleQuoted place value

/-! ### Blocks -/

def isBreakOrBlank (c : Char) : Bool :=
  c == '\n' || isSpaceOrTab c

def endsInBlankLine (value : Text) : Bool :=
  let ending := value.reverse.takeWhile isSpaceOrTab
  !ending.isEmpty && (value.reverse.dropWhile isSpaceOrTab).head? = some '\n'

def tooWide (place : Place) (value : Text) : Bool :=
  (lines value).any fun line => Fold.pageWidth - place.indent < line.units

/-- The sign for the end of a block: its text ends without newlines, with one, or
in some other way. -/
def chompSign (value ending : Text) : Text :=
  if !ending.contains '\n' then ['-']
  else if value = ending || ending.findIdx (· == '\n') + 1 ≠ ending.length then ['+']
  else []

/-- Lines that are indented more keep their line breaks as they are: of the
breaks around them, the one that folding would add is taken away. -/
def keepIndented (atStart : Bool) : Nat → Text → Text
  | 0, text => text
  | fuel + 1, text =>
      let matched (rest : Text) : Text :=
        let line := rest.takeWhile fun c => !isTerminator c
        let after := rest.dropWhile fun c => !isTerminator c
        let breaks := after.takeWhile isBreakOrBlank
        if breaks.getLast? = some '\n' then
          line ++ breaks.dropLast ++ keepIndented false fuel (after.drop breaks.length)
        else line ++ keepIndented false fuel after
      match text with
      | [] => []
      | '\n' :: c :: rest =>
          if isSpaceOrTab c then matched (c :: rest) else '\n' :: keepIndented false fuel (c :: rest)
      | c :: rest =>
          if atStart && isSpaceOrTab c then matched (c :: rest)
          else c :: keepIndented false fuel rest

def foldable (indent : Text) (value : Text) : Text :=
  let doubled := beforeBreaks ['\n'] false value
  afterBreaks indent (keepIndented true (doubled.length + 1) doubled)

/-- A string as a block. `folded` tells whether the block is folded, if that is
fixed; otherwise it is folded when a line is too wide and can be broken. -/
def block (place : Place) (folded : Option Bool) (value : Text) : Text :=
  if endsInBlankLine value then quoted place value
  else
    let indent := indentText place
    let isFolded := folded.getD (tooWide place value)
    if value.isEmpty then [if isFolded then '>' else '|', '\n']
    else
      let ending := (value.reverse.takeWhile isBreakOrBlank).reverse
      let content := value.take (value.length - ending.length)
      let kept := if ending.getLast? = some '\n' then ending.dropLast else ending
      let ending' := afterInnerBreaks indent kept
      let leading := content.takeWhile fun c => c == ' ' || c == '\n'
      let start := (leading.reverse.dropWhile (· != '\n')).reverse
      let body := content.drop start.length
      let start' := afterBreaks indent start
      let header := (if leading.contains ' ' then ['2'] else []) ++ chompSign value ending
      let literal := ['|'] ++ header ++ ['\n'] ++ indent ++ start' ++ afterBreaks indent body ++ ending'
      if isFolded then
        let (text, overflow) := Fold.fold .block place.indent (some place.indent)
          (start' ++ foldable indent body ++ ending')
        if overflow && folded.isNone then literal
        else ['>'] ++ header ++ ['\n'] ++ indent ++ text
      else literal

/-! ### Plain strings -/

def isIndicator (c : Char) : Bool :=
  "\n\t ,[]#&*!|>'\"%@".toList.contains c || c == '\x7b' || c == '\x7d' || c == '\x60'

def anyPair (test : Char → Char → Bool) : Text → Bool
  | c :: rest => (rest.head?.any (test c)) || anyPair test rest
  | [] => false

/-- Whether a plain scalar with this text would end early or begin something else. -/
def isMisread (value : Text) : Bool :=
  value.head?.any isIndicator ||
    value = ['-'] || value = ['?'] ||
    (match value with
      | c :: d :: _ => (c == '-' || c == '?') && isSpaceOrTab d
      | _ => false) ||
    anyPair (fun c d => (c == '\n' || c == ':') && isSpaceOrTab d) value ||
    anyPair (fun c d => isSpaceOrTab c && d == '\n') value ||
    anyPair (fun c d => isBreakOrBlank c && d == '#') value ||
    value.getLast?.any fun c => isBreakOrBlank c || c == ':'

def isMarker (line : Text) : Bool :=
  startsWith ['%'] line || startsWith ['-', '-', '-'] line || startsWith ['.', '.', '.'] line

def hasMarker (value : Text) : Bool :=
  (splitAt isTerminator value).any isMarker

def isFlowMark (c : Char) : Bool :=
  c == '[' || c == ']' || c == '\x7b' || c == '\x7d' || c == ','

def unquoted (place : Place) (written : Text) : Text :=
  if place.isKey then written
  else (Fold.fold .flow place.indent place.startWidth written).1

def plain (place : Place) (isPlain : Bool) (value : Text) : Text :=
  let multiLine := value.contains '\n'
  if (place.isKey && multiLine) || (place.inFlow && value.any isFlowMark) then quoted place value
  else if isMisread value then
    if place.isKey || place.inFlow || !multiLine then quoted place value else block place none value
  else if !place.isKey && !place.inFlow && !isPlain && multiLine then block place none value
  else if hasMarker value && place.isKey && place.indent = 2 then quoted place value
  else
    let written := afterBreaks ('\n' :: indentText place) value
    if place.schema.isSpecial written then quoted place value else unquoted place written

def isControl (c : Char) : Bool :=
  (c.toNat < 0x20 && c != '\t' && c != '\n') || (0x7F ≤ c.toNat && c.toNat ≤ 0x9F)

def string (place : Place) (look : Look) (value : Text) : Text :=
  if value.any isControl then doubleQuoted place value
  else
    match look with
    | .doubleQuoted => doubleQuoted place value
    | .singleQuoted => singleQuoted place value
    | .literal | .folded =>
        if place.isKey || place.inFlow then quoted place value
        else block place (some (look = .folded)) value
    | .plain _ => plain place true value
    | .any => plain place false value

def chunks (width : Nat) : Nat → Text → List Text
  | 0, _ => []
  | fuel + 1, text =>
      if text.isEmpty then [] else text.take width :: chunks width fuel (text.drop width)

/-- Digits to the base of sixty-four, on lines as wide as the page. -/
def bytes (place : Place) (look : Look) (values : List Nat) : Text :=
  let digits := Scalar.encodeBase64 values
  let width := max (Fold.pageWidth - place.indent) Fold.leastContent
  let pieces := chunks width.toNat digits.length digits
  match look with
  | .doubleQuoted => string place look digits
  | .literal => string place look (intercalate ['\n'] pieces)
  | .singleQuoted | .folded => string place look (intercalate [' '] pieces)
  | .plain _ | .any => unquoted place (intercalate [' '] pieces)

def scalar (place : Place) (look : Look) (value : Scalar) : Text :=
  let spelled (standard : Text) : Text :=
    match look with
    | .plain (some spelling) => spelling
    | _ => standard
  match value with
  | .null => spelled "null".toList
  | .bool true => spelled "true".toList
  | .bool false => spelled "false".toList
  | .number value => spelled (Scalar.numberText value)
  | .string value => string place look value
  | .bytes values => bytes place look values
  | .date time => Timestamp.shortText time
  | .mergeMark => OlderScalar.mergeKey

end ScalarPrinter

end LessonBook.Yaml
