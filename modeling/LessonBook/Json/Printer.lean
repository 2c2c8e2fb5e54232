import LessonBook.Json.Value

/-!
Writes JSON texts, on one line or with one entry per line. Keys that are array
indices stand first in an object; a number that is not finite is written as null.
-/

namespace LessonBook

namespace Json

open Text

def hexDigit (value : Nat) : Char :=
  if value < 10 then Char.ofNat (48 + value) else Char.ofNat (87 + value)

def hexEscape (value : Nat) : Text :=
  ['\\', 'u', hexDigit (value / 4096 % 16), hexDigit (value / 256 % 16),
    hexDigit (value / 16 % 16), hexDigit (value % 16)]

def escapeChar (c : Char) : Text :=
  if c == '"' then ['\\', '"']
  else if c == '\\' then ['\\', '\\']
  else if c == '\n' then ['\\', 'n']
  else if c == '\r' then ['\\', 'r']
  else if c == '\t' then ['\\', 't']
  else if c == '\x08' then ['\\', 'b']
  else if c == '\x0c' then ['\\', 'f']
  else if c.toNat < 32 then hexEscape c.toNat
  else [c]

def quote (text : Text) : Text :=
  ['"'] ++ text.flatMap escapeChar ++ ['"']

def numberText (value : Binary64) : Text :=
  match value with
  | .finite .. => value.toText
  | .infinite _ | .nan => "null".toList

/-- A new line at the given depth, where entries stand on lines of their own. -/
def newLine (indent depth : Nat) : Text :=
  if indent = 0 then [] else '\n' :: List.replicate (indent * depth) ' '

def bytesText (indent depth : Nat) (values : List Nat) : Text :=
  let items := values.map fun value => newLine indent (depth + 2) ++ Text.ofNat value
  let colon := if indent = 0 then [':'] else [':', ' ']
  ['\x7b'] ++ newLine indent (depth + 1) ++ quote "type".toList ++ colon ++ quote "Buffer".toList ++
    [','] ++ newLine indent (depth + 1) ++ quote "data".toList ++ colon ++
    (if values.isEmpty then ['[', ']']
     else ['['] ++ intercalate [','] items ++ newLine indent (depth + 1) ++ [']']) ++
    newLine indent depth ++ ['\x7d']

mutual

/-- Writes a value; `indent` blanks are added per level, or none and no lines
are broken. -/
def print (indent depth : Nat) : Json → Text
  | .null => "null".toList
  | .bool true => "true".toList
  | .bool false => "false".toList
  | .number value => numberText value
  | .string value => quote value
  | .array [] => ['[', ']']
  | .array (item :: items) =>
      ['['] ++ newLine indent (depth + 1) ++ print indent (depth + 1) item ++
        printItems indent (depth + 1) items ++ newLine indent depth ++ [']']
  | .bytes values => bytesText indent depth values
  | .object [] => ['\x7b', '\x7d']
  | .object (entry :: entries) =>
      ['\x7b'] ++
        intercalate [','] ((Record.inKeyOrder (printEntries indent (depth + 1) (entry :: entries))).map
          Prod.snd) ++
        newLine indent depth ++ ['\x7d']

def printItems (indent depth : Nat) : List Json → Text
  | [] => []
  | item :: items =>
      [','] ++ newLine indent depth ++ print indent depth item ++ printItems indent depth items

def printEntries (indent depth : Nat) : List (Text × Json) → Record Text
  | [] => []
  | (key, value) :: entries =>
      (key, newLine indent depth ++ quote key ++ (if indent = 0 then [':'] else [':', ' ']) ++
        print indent depth value) :: printEntries indent depth entries

end

def pretty (indent : Nat) (value : Json) : Text :=
  print indent 0 value

end Json

end LessonBook
