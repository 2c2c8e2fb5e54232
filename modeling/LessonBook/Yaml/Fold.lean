import LessonBook.Text.Units

/-!
Folding of long lines. A text that is wider than the page is broken at blanks
between words; in a quoted text a line may also end in the middle of a word with
a backslash. Widths count 16-bit units.
-/

namespace LessonBook.Yaml.Fold

open Text

inductive Mode where
  | flow
  | block
  | quoted
  deriving DecidableEq, Repr

def pageWidth : Int := 80

def leastContent : Int := 20

abbrev Place := Option Char

/-- The breaks found so far, last first, and those of them inside a word; the
place from which a break is due, the last blank where one is possible, and
where the last escape began and ended. -/
structure State where
  breaks : List Nat := []
  inWord : List Nat := []
  limit : Int
  blank : Option Nat := none
  previous : Option Place := none
  overflow : Bool := false
  escapeStart : Int := -1
  escapeEnd : Int := -1
  stuck : Bool := false

def isAt (text : Array Place) (index : Nat) (test : Char → Bool) : Bool :=
  match text[index]? with
  | some (some c) => test c
  | _ => false

def isGap (c : Char) : Bool :=
  c == ' ' || c == '\n' || c == '\t'

def isWordPlace : Option Place → Bool
  | none => false
  | some none => true
  | some (some c) => !isGap c

def lineEnd (text : Array Place) : Nat → Nat → Nat
  | 0, index => index
  | fuel + 1, index =>
      if index < text.size && !isAt text index (· == '\n') then lineEnd text fuel (index + 1)
      else index

/-- Passes over lines that begin with more blanks than the indentation. `start`
is where the line begins, `index` the place reached in it; the answer is the
place behind the last line passed. -/
def skipIndented (text : Array Place) (indent : Nat) : Nat → Nat → Nat → Nat → Nat
  | 0, passed, _, _ => passed
  | fuel + 1, passed, start, index =>
      if isAt text (if index ≤ start then start else index - 1) isSpaceOrTab then
        if index ≤ start + indent then skipIndented text indent fuel passed start (index + 1)
        else
          let newline := lineEnd text text.size index
          skipIndented text indent fuel (newline + 1) (newline + 1) (newline + 1)
      else passed

def afterIndented (text : Array Place) (indent start : Nat) : Nat :=
  skipIndented text indent (text.size + 2) start start start

def escapeLength (text : Array Place) (index : Nat) : Nat :=
  match text[index + 1]? with
  | some (some 'x') => 3
  | some (some 'u') => 5
  | some (some 'U') => 9
  | _ => 1

/-- Where a scan stands: the index, and the character or escape found there. -/
structure Head where
  index : Nat
  here : Option Place

def isBlankPlace : Option Place → Bool
  | some (some c) => isSpaceOrTab c
  | _ => false

/-- Blanks at the place of a break go to the line in front of it. -/
def passBlanks (text : Array Place) : Nat → Head → State → Head × State
  | 0, head, state => (head, state)
  | fuel + 1, head, state =>
      if isBlankPlace state.previous then
        passBlanks text fuel ⟨head.index + 1, text[head.index + 1]?⟩
          { state with previous := head.here, overflow := true }
      else (head, state)

def breakLine (mode : Mode) (text : Array Place) (step : Int) (head : Head) (state : State) :
    Head × State :=
  match state.blank with
  | some blank =>
      (head, { state with
        breaks := blank :: state.breaks, limit := blank + step, blank := none })
  | none =>
      if mode = .quoted then
        let (head, state) := passBlanks text text.size head state
        let place := (if state.escapeEnd + 1 < head.index then (head.index : Int) - 2
          else state.escapeStart - 1).toNat
        if state.inWord.contains place then (head, { state with stuck := true })
        else
          (head, { state with
            breaks := place :: state.breaks, inWord := place :: state.inWord
            limit := place + step, blank := none })
      else (head, { state with overflow := true })

def scan (mode : Mode) (text : Array Place) (indent : Nat) (step : Int) : Nat → Nat → State → State
  | 0, _, state => state
  | fuel + 1, index, state =>
      if state.stuck || text.size ≤ index then state
      else
        let isEscape := mode = .quoted && isAt text index (· == '\\')
        let last := if isEscape then index + escapeLength text index else index
        let state := if isEscape then
            { state with escapeStart := index, escapeEnd := last }
          else state
        let here : Option Place := text[index]?
        if isAt text index (· == '\n') then
          let next := if mode = .block then afterIndented text indent (index + 1) else index + 1
          scan mode text indent step fuel next
            { state with
              limit := (next : Int) - 1 + indent + step, blank := none, previous := here }
        else
          let follows := text[last + 1]?
          let isBlank := isAt text index (· == ' ') && isWordPlace state.previous &&
            isWordPlace follows
          let state := if isBlank then { state with blank := some last } else state
          if state.limit ≤ last then
            let (head, state) := breakLine mode text step ⟨last, here⟩ state
            scan mode text indent step fuel (head.index + 1) { state with previous := head.here }
          else scan mode text indent step fuel (last + 1) { state with previous := here }

def slice (text : Array Place) (first last : Nat) : Text :=
  ofPlaces (text.extract first last).toList

def linesFrom (text : Array Place) (indent : Text) (inWord : List Nat) : List Nat → Text
  | [] => []
  | place :: rest =>
      let last := rest.head?.getD text.size
      let front := if inWord.contains place then slice text place (place + 1) ++ ['\\'] else []
      let first := if place = 0 then 0 else place + 1
      front ++ '\n' :: indent ++ slice text first last ++ linesFrom text indent inWord rest

/-- The folded text, and whether some line is still too wide. `startWidth` is
the width of what stands on the first line in front of the text. -/
def fold (mode : Mode) (indent : Nat) (startWidth : Option Nat) (source : Text) : Text × Bool :=
  let text := source.places.toArray
  let step := max (1 + leastContent) (1 + pageWidth - indent)
  if (text.size : Int) ≤ step then (source, false)
  else
    let tooFar := startWidth.any fun width => pageWidth - leastContent < width
    let limit := match startWidth with
      | some width => if tooFar then pageWidth - indent else pageWidth - width
      | none => pageWidth - indent
    let start := if mode = .block then afterIndented text indent 0 else 0
    let limit := if start = 0 then limit else (start : Int) - 1 + step
    let state := scan mode text indent step (text.size + 1) start
      { breaks := if tooFar then [0] else [], limit }
    if state.stuck || state.breaks.isEmpty then (source, state.overflow)
    else
      let breaks := state.breaks.reverse
      (slice text 0 (breaks.head?.getD 0) ++
        linesFrom text (List.replicate indent ' ') state.inWord breaks, state.overflow)

end LessonBook.Yaml.Fold
