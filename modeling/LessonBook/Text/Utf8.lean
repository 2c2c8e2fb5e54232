import LessonBook.Text.Basic

/-!
Texts as bytes in UTF-8. Decoding takes the longest run of bytes that can begin a
character; where that is no whole character, the run stands for one fault.
-/

namespace LessonBook.Text.Utf8

abbrev Byte := Nat

def encodeChar (c : Char) : List Byte :=
  let code := c.toNat
  if code < 0x80 then [code]
  else if code < 0x800 then [0xC0 + code / 0x40, 0x80 + code % 0x40]
  else if code < 0x10000 then
    [0xE0 + code / 0x1000, 0x80 + code / 0x40 % 0x40, 0x80 + code % 0x40]
  else
    [0xF0 + code / 0x40000, 0x80 + code / 0x1000 % 0x40, 0x80 + code / 0x40 % 0x40,
      0x80 + code % 0x40]

def encode (text : Text) : List Byte :=
  text.flatMap encodeChar

/-- What the first byte of a character says: its bits, how many bytes follow,
and between which bounds the next one lies. -/
structure Lead where
  bits : Nat
  count : Nat
  least : Byte := 0x80
  greatest : Byte := 0xBF

def lead? (byte : Byte) : Option Lead :=
  if byte < 0x80 then some { bits := byte, count := 0 }
  else if 0xC2 ≤ byte && byte < 0xE0 then some { bits := byte - 0xC0, count := 1 }
  else if 0xE0 ≤ byte && byte < 0xF0 then
    some { bits := byte - 0xE0, count := 2,
           least := if byte = 0xE0 then 0xA0 else 0x80,
           greatest := if byte = 0xED then 0x9F else 0xBF }
  else if 0xF0 ≤ byte && byte < 0xF5 then
    some { bits := byte - 0xF0, count := 3,
           least := if byte = 0xF0 then 0x90 else 0x80,
           greatest := if byte = 0xF4 then 0x8F else 0xBF }
  else none

/-- Decodes with the bits of an unfinished character and the number of bytes it
still needs. A fault is `none`. -/
def decodeFrom (pending : Option Lead) : List Byte → List (Option Char)
  | [] => if pending.isSome then [none] else []
  | byte :: rest =>
      let begin : List (Option Char) :=
        match lead? byte with
        | none => none :: decodeFrom none rest
        | some lead =>
            if lead.count = 0 then some (Char.ofNat lead.bits) :: decodeFrom none rest
            else decodeFrom (some lead) rest
      match pending with
      | none => begin
      | some lead =>
          if lead.least ≤ byte && byte ≤ lead.greatest then
            let bits := lead.bits * 0x40 + (byte - 0x80)
            if lead.count = 1 then some (Char.ofNat bits) :: decodeFrom none rest
            else decodeFrom (some { bits, count := lead.count - 1 }) rest
          else none :: begin

/-- Every fault becomes the replacement character. -/
def decode (bytes : List Byte) : Text :=
  (decodeFrom none bytes).map fun c => c.getD '\uFFFD'

def decode? (bytes : List Byte) : Option Text :=
  (decodeFrom none bytes).mapM id

end LessonBook.Text.Utf8
