import LessonBook.Yaml.Outline.Basic

/-!
The text that a scalar stands for. Plain and quoted scalars fold their lines; a
block scalar is cut free of its indentation, and its header says how it ends.
There is no text when the scalar is malformed.
-/

namespace LessonBook.Yaml.ScalarText

open Text

/-- Joins the lines behind the first one: a line break alone is a blank, and of
several one is dropped. -/
def foldAfter (folded : Text) (separator : Char) : List Text → Text
  | [] => folded
  | [last] => folded ++ separator :: last.dropWhile isSpaceOrTab
  | line :: more =>
      match dropEndWhile isSpaceOrTab (line.dropWhile isSpaceOrTab) with
      | [] =>
          if separator == '\n' then foldAfter (folded ++ ['\n']) '\n' more
          else foldAfter folded '\n' more
      | content => foldAfter (folded ++ separator :: content) ' ' more

def foldLines (source : Text) : Text :=
  match lines source with
  | first :: rest@(_ :: _) => foldAfter (dropEndWhile isSpaceOrTab first) ' ' rest
  | _ => source

def isReserved (c : Char) : Bool :=
  ['\t', ',', '%', '|', '>', '@', '\x60'].contains c

def plain? (source : Text) : Option Text :=
  match source with
  | c :: _ => if isReserved c then none else some (foldLines source)
  | [] => some []

def joinQuotes : Text → Text
  | '\'' :: '\'' :: rest => '\'' :: joinQuotes rest
  | c :: rest => c :: joinQuotes rest
  | [] => []

def between? (quote : Char) (source : Text) : Option Text :=
  match source with
  | _ :: rest => if rest.getLast? = some quote then some rest.dropLast else none
  | [] => none

def singleQuoted? (source : Text) : Option Text :=
  (between? '\'' source).map fun content => joinQuotes (foldLines content)

def escaped? (c : Char) : Option Char :=
  match c with
  | '0' => some '\x00'
  | 'a' => some '\x07'
  | 'b' => some '\x08'
  | 'e' => some '\x1b'
  | 'f' => some '\x0c'
  | 'n' => some '\n'
  | 'r' => some '\r'
  | 't' => some '\t'
  | 'v' => some '\x0b'
  | 'N' => some '\u0085'
  | '_' => some '\u00a0'
  | 'L' => some '\u2028'
  | 'P' => some '\u2029'
  | ' ' | '"' | '/' | '\\' | '\t' => some c
  | _ => none

def escapeLength? (c : Char) : Option Nat :=
  match c with
  | 'x' => some 2
  | 'u' => some 4
  | 'U' => some 8
  | _ => none

def hexValue? (c : Char) : Option Nat :=
  if c.isDigit then some (c.toNat - 48)
  else if 'a' ≤ c && c ≤ 'f' then some (c.toNat - 87)
  else if 'A' ≤ c && c ≤ 'F' then some (c.toNat - 55)
  else none

def hexNumber? (count : Nat) (digits : Text) : Option Nat :=
  if digits.length = count then
    digits.foldlM (fun value digit => (hexValue? digit).map (16 * value + ·)) 0
  else none

def foldBreaks : Text → Text × Text
  | '\n' :: rest =>
      let (newlines, after) := foldBreaks rest
      ('\n' :: newlines, after)
  | ' ' :: rest => foldBreaks rest
  | '\t' :: rest => foldBreaks rest
  | rest => ([], rest)

/-- The content of a double-quoted scalar as 16-bit units or characters: an
escape may stand for one half of a pair. `last` is what stands behind the content. -/
def unescape (last : Char) : Nat → Text → Option (List Nat)
  | 0, _ => none
  | _, [] => some []
  | fuel + 1, c :: rest =>
      if c == '\n' then do
        let (newlines, after) := foldBreaks rest
        let breaks := if newlines.isEmpty then [' '] else newlines
        let following ← unescape last fuel after
        some (breaks.map Char.toNat ++ following)
      else if c == ' ' || c == '\t' then do
        let blanks := rest.takeWhile isSpaceOrTab
        let after := rest.dropWhile isSpaceOrTab
        let following ← unescape last fuel after
        some (if after.head? = some '\n' then following
          else (c :: blanks).map Char.toNat ++ following)
      else if c == '\\' then
        match rest with
        | [] => (escaped? last).map fun escape => [escape.toNat]
        | d :: after =>
            match escaped? d, escapeLength? d with
            | some escape, _ => do
                let following ← unescape last fuel after
                some (escape.toNat :: following)
            | none, some count => do
                let code ← hexNumber? count (after.take count)
                let following ← unescape last fuel (after.drop count)
                if code ≤ 0x10FFFF then some (code :: following) else none
            | none, none =>
                if d == '\n' then unescape last fuel (after.dropWhile isSpaceOrTab) else none
      else do
        let following ← unescape last fuel rest
        some (c.toNat :: following)

/-- Joins the halves of pairs. A half without its partner becomes the
replacement character. -/
def joinPairs : List Nat → Text
  | high :: low :: rest =>
      if 0xD800 ≤ high && high < 0xDC00 && 0xDC00 ≤ low && low < 0xE000 then
        Char.ofNat (0x10000 + (high - 0xD800) * 0x400 + (low - 0xDC00)) :: joinPairs rest
      else if 0xD800 ≤ high && high < 0xE000 then '\uFFFD' :: joinPairs (low :: rest)
      else Char.ofNat high :: joinPairs (low :: rest)
  | [code] => [if 0xD800 ≤ code && code < 0xE000 then '\uFFFD' else Char.ofNat code]
  | [] => []

def doubleQuoted? (source : Text) : Option Text := do
  let content ← between? '"' source
  let units ← unescape '"' (content.length + 1) content
  some (joinPairs units)

/-! ### Block scalars -/

/-- How a block scalar ends: without a newline, with one, or with all it has. -/
inductive Chomp where
  | strip
  | clip
  | keep
  deriving DecidableEq, Repr

structure Header where
  folded : Bool
  chomp : Option Chomp := none
  extraIndent : Nat := 0
  deriving Repr

def headerSigns (header : Header) : Text → Option Header
  | [] => some header
  | c :: rest =>
      if c == '-' && header.chomp.isNone then headerSigns { header with chomp := some .strip } rest
      else if c == '+' && header.chomp.isNone then
        headerSigns { header with chomp := some .keep } rest
      else if '1' ≤ c && c ≤ '9' && header.extraIndent = 0 then
        headerSigns { header with extraIndent := c.toNat - 48 } rest
      else none

def headerTail (afterSpace : Bool) : List Mark → Bool
  | [] => true
  | mark :: rest =>
      match mark.kind with
      | .space => headerTail true rest
      | .newline => headerTail afterSpace rest
      | .comment => afterSpace && headerTail afterSpace rest
      | _ => false

def header? (marks : List Mark) : Option Header :=
  match marks with
  | mark :: rest =>
      match mark.text with
      | sign :: signs =>
          if headerTail false rest then headerSigns { folded := sign == '>' } signs else none
      | [] => none
  | [] => none

structure Line where
  indent : Nat
  content : Text
  deriving Repr, Inhabited

def lineOf (line : Text) : Line :=
  let content := line.dropWhile (· == ' ')
  ⟨line.length - content.length, content⟩

def blanks (count : Nat) : Text :=
  List.replicate count ' '

def Line.cut (line : Line) (width : Nat) : Text :=
  blanks (line.indent - width)

/-- The indentation to cut, found at the first line that is not blank, and the
number of blank lines in front of it. -/
def cutWidth? (fixed : Bool) (atRoot : Bool) : Nat → Nat → List Line → Option (Nat × Nat)
  | width, _, [] => some (width, 0)
  | width, count, line :: rest =>
      if line.content.isEmpty then
        cutWidth? fixed atRoot (if !fixed && width < line.indent then line.indent else width)
          (count + 1) rest
      else if line.indent < width then none
      else
        let width := if fixed then width else line.indent
        if width = 0 && !atRoot then none else some (width, count)

/-- The separator in front of the next line of a folded scalar, and whether the
line before was indented more. -/
structure Folding where
  value : Text := []
  separator : Text := []
  moreIndented : Bool := false

def foldLine (width : Nat) (line : Line) (state : Folding) : Folding :=
  if width < line.indent || line.content.head? = some '\t' then
    let separator :=
      if state.separator = [' '] then ['\n']
      else if !state.moreIndented && state.separator = ['\n'] then ['\n', '\n']
      else state.separator
    { value := state.value ++ separator ++ line.cut width ++ line.content
      separator := ['\n']
      moreIndented := true }
  else if line.content.isEmpty then
    if state.separator = ['\n'] then { state with value := state.value ++ ['\n'] }
    else { state with separator := ['\n'] }
  else
    { value := state.value ++ state.separator ++ line.content
      separator := [' ']
      moreIndented := false }

def keepLine (width : Nat) (line : Line) (state : Folding) : Folding :=
  { state with
    value := state.value ++ state.separator ++ line.cut width ++ line.content
    separator := ['\n'] }

def evenlyIndented (width : Nat) (lines : List Line) : Bool :=
  lines.all fun line => line.content.isEmpty || width ≤ line.indent

def endLines (width : Nat) (lines : List Line) : List Line :=
  (lines.reverse.takeWhile fun line => line.content.isEmpty && line.indent ≤ width).reverse

def newlines (count : Nat) : Text :=
  List.replicate count '\n'

def blockContent? (header : Header) (indent : Nat) (atRoot : Bool) (lines : List Line) :
    Option Text := do
  let filled := (lines.reverse.dropWhile fun line => line.content.isEmpty).reverse
  let (width, leading) ← cutWidth? (header.extraIndent ≠ 0) atRoot (indent + header.extraIndent) 0
    filled
  let ending := endLines width lines
  let content := (lines.take (lines.length - ending.length)).drop leading
  if !evenlyIndented width content then none
  let start := (lines.take leading).flatMap fun line => line.cut width ++ ['\n']
  let step := if header.folded then foldLine width else keepLine width
  let body := (content.foldl (fun state line => step line state) { value := start }).value
  match header.chomp with
  | some .strip => some body
  | some .keep =>
      let kept := body ++ ending.flatMap fun line => '\n' :: line.cut width
      some (if kept.getLast? = some '\n' then kept else kept ++ ['\n'])
  | _ => some (body ++ ['\n'])

def block? (header : List Mark) (body : Text) (indent : Nat) (atRoot : Bool) : Option Text := do
  let header ← header? header
  let lines := if body.isEmpty then [] else (lines body).map lineOf
  if lines.all fun line => line.content.isEmpty then
    some (if header.chomp = some .keep && !lines.isEmpty then newlines (max 1 (lines.length - 1))
      else [])
  else blockContent? header indent atRoot lines

end LessonBook.Yaml.ScalarText
