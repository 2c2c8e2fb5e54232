import LessonBook.Text.Recognizer
import LessonBook.Unicode.Category

/-!
Emphasis by runs of stars and underscores. What stands in code spans, links and
tags is masked first, so that no run inside them counts.
-/

namespace LessonBook

namespace Emphasis

open Text Recognizer Unicode

def maskedSpan? : Text → Option Text
  | '[' :: inside => do
      let closed ← char ']' (inside.dropWhile fun c => c != '[' && c != ']')
      let target ← char '(' closed
      char ')' (target.dropWhile fun c => c != '(' && c != ')')
  | '`' :: inside => char '`' (inside.dropWhile (· != '`'))
  | '<' :: inside => char '>' (inside.dropWhile fun c => c != '<' && c != '>')
  | _ => none

/-- Replaces every masked span by brackets around letters of the same length.
`remaining` characters of the current span are still to come. -/
def maskSpans (remaining : Nat) : Text → Text
  | [] => []
  | text@(c :: rest) =>
      match remaining with
      | 1 => ']' :: maskSpans 0 rest
      | count + 2 => 'a' :: maskSpans (count + 1) rest
      | 0 =>
          match maskedSpan? text with
          | some left => '[' :: maskSpans (text.length - left.length - 1) rest
          | none => c :: maskSpans 0 rest

/-- A backslash and the mark behind it count as two neutral signs. -/
def maskEscapes : Text → Text
  | [] => []
  | '\\' :: c :: rest =>
      if isPunctuation c then '+' :: '+' :: maskEscapes rest else '\\' :: maskEscapes (c :: rest)
  | c :: rest => c :: maskEscapes rest

def mask (text : Text) : Text :=
  maskEscapes (maskSpans 0 text)

inductive Side where
  | opens
  | closes
  | both
  deriving DecidableEq, Repr

structure Run where
  index : Nat
  count : Nat
  side : Side
  deriving DecidableEq, Repr

inductive Neighbour where
  | blank
  | mark
  | other
  deriving DecidableEq, Repr

def neighbour (c : Char) : Neighbour :=
  if isBlank c then .blank else if isPunctuation c then .mark else .other

/-- The side of a run from the character in front of it and the one behind it.
A run of underscores inside a word does not count. -/
def side? (mark : Char) (front : Neighbour) (behind : Option Neighbour) : Option Side :=
  match front, behind with
  | .mark, none | .mark, some .blank => some .closes
  | .other, none | .other, some .blank | .other, some .mark => some .closes
  | .mark, some .other | .blank, some .other => some .opens
  | .blank, some .mark => some .opens
  | .mark, some .mark => some .both
  | .other, some .other => if mark == '*' then some .both else none
  | .blank, none | .blank, some .blank => none

def runBetween (mark : Char) (index : Nat) (front : Option Char) (count : Nat)
    (behind : Option Char) : List Run :=
  match front with
  | none => []
  | some c =>
      if count = 0 then []
      else match side? mark (neighbour c) (behind.map neighbour) with
        | some side => [⟨index, count, side⟩]
        | none => []

/-- The runs of a mark from left to right. The index of a run is that of the
character in front of it. -/
def runs (mark : Char) (position : Nat) (front : Option Char) (count : Nat) : Text → List Run
  | [] => runBetween mark (position - count - 1) front count none
  | c :: rest =>
      if c == mark then runs mark (position + 1) front (count + 1) rest
      else runBetween mark (position - count - 1) front count (some c) ++
        runs mark (position + 1) (some c) 0 rest

/-- Text up to a double mark of the other kind that holds a pair of them and a
single mark between: nothing in it can close. -/
def crossing? (mark : Char) (text : Text) : Option Text :=
  let other := if mark == '*' then '_' else '*'
  let skipPlain (rest : Text) : Text := rest.dropWhile fun c => c != '*' && c != '_'
  do
    let first ← word [other, other] (skipPlain text)
    let second ← char mark (skipPlain first)
    let rest := skipPlain second
    if startsWith [other, other] rest then some rest else none

/-- Searches the run that closes an emphasis of `opened` marks; answers with the
index of the run and the number of its marks that are used. -/
def closing? (opened total middle : Nat) : List Run → Option (Nat × Nat)
  | [] => none
  | run :: others =>
      if run.side = .opens then closing? opened (total + run.count) middle others
      else if run.side = .both && opened % 3 != 0 && (opened + run.count) % 3 == 0 then
        closing? opened total (middle + run.count) others
      else if run.count < total then closing? opened (total - run.count) middle others
      else some (run.index, min run.count (total + middle))

/-- Whether a run of marks can open emphasis, from the last plain character in
front of it and the character behind it. Characters outside the basic plane
count as neither letters nor marks when they stand in front. -/
def mayOpen (mark : Char) (previous : Option Char) (next : Char) : Bool :=
  let inBasicPlane (c : Char) := c.toNat < 0x10000
  !isBlank next &&
    !(mark == '_' && !isPunctuation next &&
      previous.any fun c => inBasicPlane c && isLetterOrNumber c) &&
    (!isPunctuation next ||
      match previous with
      | none => true
      | some c => inBasicPlane c && c != '*' && c != '_' && (isBlank c || isPunctuation c))

/-- Reads an emphasis at the front of `text`; `masked` is the masked form of the
text around it. Answers with the emphasised text and what follows. -/
def read? (masked : Text) (previous : Option Char) (text : Text) : Option (Text × Text) := do
  let mark ← text.head?
  if mark != '*' && mark != '_' then none
  let opened := (text.takeWhile (· == mark)).length
  let next ← (text.dropWhile (· == mark)).head?
  if !mayOpen mark previous next then none
  let here := masked.drop (masked.length - text.length + opened)
  let left := (crossing? mark here).getD here
  let (index, closed) ←
    closing? opened opened 0 (runs mark (here.length - left.length) none 0 left)
  let raw := text.take (opened + index + 1 + closed)
  let width := if (min opened closed) % 2 = 1 then 1 else 2
  some ((raw.drop width).take (raw.length - 2 * width), text.drop raw.length)

end Emphasis

end LessonBook
