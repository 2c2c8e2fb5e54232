import LessonBook.Text.Utf8
import LessonBook.Yaml.Schema

/-!
Directives and tags. A tag in its short form begins with a handle, which stands
for the front part of the full tag; directives declare handles.
-/

namespace LessonBook.Yaml

open Text

abbrev Handles := List (Text × Text)

namespace Handles

def standard : Handles :=
  [(['!', '!'], (coreTag "").toList)]

def find? (handle : Text) : Handles → Option Text
  | [] => none
  | (name, meaning) :: rest => if name = handle then some meaning else find? handle rest

def declare (handles : Handles) (handle meaning : Text) : Handles :=
  if handles.any fun entry => entry.1 = handle then
    handles.map fun entry => if entry.1 = handle then (handle, meaning) else entry
  else handles ++ [(handle, meaning)]

end Handles

structure Directives where
  handles : Handles := Handles.standard
  schema : Schema := .core
  deriving Repr

namespace Directives

def isVersion (text : Text) : Bool :=
  match text.dropWhile Char.isDigit with
  | '.' :: minor => isDigits (text.takeWhile Char.isDigit) && isDigits minor
  | _ => false

/-- Declares a version. One that is not known changes nothing. -/
def declareVersion? (version : Text) (directives : Directives) : Option Directives :=
  if version = "1.1".toList then some { directives with schema := .older }
  else if version = "1.2".toList then some { directives with schema := .core }
  else if isVersion version then some directives
  else none

/-- Reads a directive; none when it is malformed. Unknown directives declare nothing. -/
def read? (directives : Directives) (line : Text) : Option Directives :=
  match (splitAt isSpaceOrTab (trim line)).filter (!·.isEmpty) with
  | name :: values =>
      if name = "%TAG".toList then
        match values with
        | [handle, meaning] =>
            some { directives with handles := directives.handles.declare handle meaning }
        | _ => none
      else if name = "%YAML".toList then
        match values with
        | [version] => directives.declareVersion? version
        | _ => none
      else some directives
  | [] => some directives

end Directives

namespace Tag

def unescapeBytes : Text → Option (List Nat)
  | '%' :: high :: low :: rest => do
      let first ← ScalarText.hexValue? high
      let second ← ScalarText.hexValue? low
      let following ← unescapeBytes rest
      some ((16 * first + second) :: following)
  | '%' :: _ => none
  | c :: rest => (unescapeBytes rest).map (Utf8.encodeChar c ++ ·)
  | [] => some []

def unescape? (text : Text) : Option Text :=
  (unescapeBytes text).bind Utf8.decode?

/-- The full form of a tag; none when it is malformed or its handle is not
declared. The tag `!` alone is its own full form, and so is a local one. -/
def resolve? (handles : Handles) (source : Text) : Option Text :=
  match source with
  | ['!'] => some source
  | '!' :: '<' :: rest =>
      let inner := rest.dropLast
      if rest.getLast? = some '>' && inner ≠ ['!'] && inner ≠ ['!', '!'] then some inner else none
  | _ =>
      let suffix := (source.reverse.takeWhile (· != '!')).reverse
      let handle := source.take (source.length - suffix.length)
      if suffix.isEmpty then none
      else match handles.find? handle with
        | some meaning => (unescape? suffix).map (meaning ++ ·)
        | none => if handle = ['!'] then some source else none

def escapeChar (c : Char) : Text :=
  match c with
  | '!' => "%21".toList
  | ',' => "%2C".toList
  | '[' => "%5B".toList
  | ']' => "%5D".toList
  | '\x7b' => "%7B".toList
  | '\x7d' => "%7D".toList
  | _ => [c]

def shorten (handles : Handles) (tag : Text) : Text :=
  match List.find? (fun entry => startsWith entry.2 tag) handles with
  | some (handle, meaning) => handle ++ (tag.drop meaning.length).flatMap escapeChar
  | none => if tag.head? = some '!' then tag else ['!', '<'] ++ tag ++ ['>']

end Tag

end LessonBook.Yaml
