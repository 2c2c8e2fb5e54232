import LessonBook.Json.Value
import LessonBook.Text.Recognizer

/-!
Reads JSON texts. A later entry for a key of an object replaces an earlier one
in its place. Texts hold no surrogate alone, so the escape of one is read as U+FFFD.
-/

namespace LessonBook

namespace Json

open Text Recognizer

def isJsonBlank (c : Char) : Bool :=
  c == ' ' || c == '\n' || c == '\r' || c == '\t'

def skipJsonBlanks (text : Text) : Text :=
  text.dropWhile isJsonBlank

def hexValue? (c : Char) : Option Nat :=
  if c.isDigit then some (c.toNat - 48)
  else if 'a' ≤ c && c ≤ 'f' then some (c.toNat - 87)
  else if 'A' ≤ c && c ≤ 'F' then some (c.toNat - 55)
  else none

def codeUnit? : Text → Option (Nat × Text)
  | a :: b :: c :: d :: rest => do
      let value := ((← hexValue? a) * 16 + (← hexValue? b)) * 256 + (← hexValue? c) * 16 +
        (← hexValue? d)
      some (value, rest)
  | _ => none

/-- The character of a code unit, which two units of a pair make together. A
unit without its partner is replaced. -/
def unicodeEscape? (text : Text) : Option (Char × Text) := do
  let (unit, rest) ← codeUnit? text
  if 0xD800 ≤ unit && unit < 0xDC00 then
    match rest with
    | '\\' :: 'u' :: more =>
        match codeUnit? more with
        | some (low, left) =>
            if 0xDC00 ≤ low && low < 0xE000 then
              some (Char.ofNat (0x10000 + (unit - 0xD800) * 1024 + (low - 0xDC00)), left)
            else some ('\uFFFD', rest)
        | none => some ('\uFFFD', rest)
    | _ => some ('\uFFFD', rest)
  else if 0xDC00 ≤ unit && unit < 0xE000 then some ('\uFFFD', rest)
  else some (Char.ofNat unit, rest)

def escape? (text : Text) : Option (Char × Text) :=
  match text with
  | '"' :: rest => some ('"', rest)
  | '\\' :: rest => some ('\\', rest)
  | '/' :: rest => some ('/', rest)
  | 'b' :: rest => some ('\x08', rest)
  | 'f' :: rest => some ('\x0c', rest)
  | 'n' :: rest => some ('\n', rest)
  | 'r' :: rest => some ('\r', rest)
  | 't' :: rest => some ('\t', rest)
  | 'u' :: rest => unicodeEscape? rest
  | _ => none

def stringBody? : Nat → Text → Option (Text × Text)
  | 0, _ => none
  | fuel + 1, text =>
      match text with
      | [] => none
      | '"' :: rest => some ([], rest)
      | '\\' :: rest => do
          let (c, after) ← escape? rest
          let (body, left) ← stringBody? fuel after
          some (c :: body, left)
      | c :: rest =>
          if c.toNat < 32 then none
          else do
            let (body, left) ← stringBody? fuel rest
            some (c :: body, left)

def numeral? (text : Text) : Option Text := do
  let unsigned := match text with
    | '-' :: rest => rest
    | _ => text
  let whole ← match unsigned with
    | '0' :: rest => some rest
    | _ => some1 Char.isDigit unsigned
  let fraction ← match whole with
    | '.' :: rest => some1 Char.isDigit rest
    | _ => some whole
  match fraction with
  | e :: rest =>
      if e == 'e' || e == 'E' then
        some1 Char.isDigit (match rest with
          | '+' :: digits => digits
          | '-' :: digits => digits
          | _ => rest)
      else some fraction
  | [] => some fraction

mutual

/-- Reads a value and what follows it. Every call takes a character or ends. -/
def value? : Nat → Text → Option (Json × Text)
  | 0, _ => none
  | fuel + 1, text =>
      match skipJsonBlanks text with
      | [] => none
      | '\x7b' :: rest =>
          match skipJsonBlanks rest with
          | '\x7d' :: after => some (.object [], after)
          | _ => do
              let (entries, after) ← entries? fuel [] rest
              some (.object entries, after)
      | '[' :: rest =>
          match skipJsonBlanks rest with
          | ']' :: after => some (.array [], after)
          | _ => do
              let (items, after) ← items? fuel rest
              some (.array items, after)
      | '"' :: rest => do
          let (body, after) ← stringBody? (rest.length + 1) rest
          some (.string body, after)
      | start =>
          ((word ['t', 'r', 'u', 'e'] start).map fun rest => (.bool true, rest)).or <|
          ((word ['f', 'a', 'l', 's', 'e'] start).map fun rest => (.bool false, rest)).or <|
          ((word ['n', 'u', 'l', 'l'] start).map fun rest => (.null, rest)).or <|
          (numeral? start).map fun rest =>
            (.number (Binary64.ofNumeral (before start rest)), rest)

def items? : Nat → Text → Option (List Json × Text)
  | 0, _ => none
  | fuel + 1, text => do
      let (item, rest) ← value? fuel text
      match skipJsonBlanks rest with
      | ',' :: after => do
          let (items, left) ← items? fuel after
          some (item :: items, left)
      | ']' :: after => some ([item], after)
      | _ => none

def entries? : Nat → Record Json → Text → Option (Record Json × Text)
  | 0, _, _ => none
  | fuel + 1, record, text => do
      let quoted ← char '"' (skipJsonBlanks text)
      let (key, afterKey) ← stringBody? (quoted.length + 1) quoted
      let assigned ← char ':' (skipJsonBlanks afterKey)
      let (value, rest) ← value? fuel assigned
      let extended := Record.put key value record
      match skipJsonBlanks rest with
      | ',' :: after => entries? fuel extended after
      | '\x7d' :: after => some (extended, after)
      | _ => none

end

def ofText? (text : Text) : Option Json := do
  let (value, rest) ← value? (text.length + 1) text
  if (skipJsonBlanks rest).isEmpty then some value else none

end Json

end LessonBook
