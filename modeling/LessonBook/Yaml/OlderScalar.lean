import LessonBook.Text.Recognizer
import LessonBook.Yaml.Scalar
import LessonBook.Yaml.Timestamp

/-!
What plain scalars mean in documents of version 1.1: more words are booleans,
low lines may part the digits of a number, numbers may be written to the base of
two or sixty, and there are dates and the merge mark.
-/

namespace LessonBook.Yaml.OlderScalar

open Text Scalar

def boolOf? (text : Text) : Option Bool :=
  if ["Y", "y", "Yes", "yes", "YES", "True", "true", "TRUE", "On", "on", "ON"].contains
    (String.ofList text) then some true
  else if ["N", "n", "No", "no", "NO", "False", "false", "FALSE", "Off", "off", "OFF"].contains
    (String.ofList text) then some false
  else none

def isDigitOrLine (c : Char) : Bool :=
  c.isDigit || c == '_'

def withoutLines (text : Text) : Text :=
  text.filter (· != '_')

def isNegative (text : Text) : Bool :=
  text.head? = some '-'

/-- An integer behind the lead of its radix. Low lines alone are no number. -/
def radixInteger? (lead : String) (radix : Nat) (text : Text) : Option Recognized := do
  let digits ← Recognizer.word lead.toList (unsigned text)
  let fits (c : Char) : Bool := c == '_' || (ScalarText.hexValue? c).any (· < radix)
  if digits.isEmpty || !digits.all fits then none
  else match radixValue? radix (withoutLines digits) with
    | some value => some (.ofInteger lead radix (.ofFraction (isNegative text) value 1))
    | none => some (.ofInteger lead radix .nan)

def isWhole (text : Text) : Bool :=
  text.head?.any Char.isDigit && text.all isDigitOrLine

def integer? (text : Text) : Option Recognized :=
  if isWhole (unsigned text) then
    some { kind := "int", value := .number (.ofNumeral (withoutLines text)) }
  else none

/-- What may stand in front of an exponent: digits in front of a point and behind
it, each of which may be missing. -/
def isMantissa (text : Text) : Bool :=
  let whole := text.takeWhile (· != '.')
  (whole.isEmpty || isWhole whole) && ((text.dropWhile (· != '.')).drop 1).all isDigitOrLine

/-- The value of a numeral; without a digit in its mantissa it is no number. -/
def valueOf (mantissa numeral : Text) : Binary64 :=
  if mantissa.any Char.isDigit then .ofNumeral (withoutLines numeral) else .nan

def exponential? (text : Text) : Option Recognized :=
  let mantissa := (unsigned text).takeWhile fun c => !isExponent c
  match (unsigned text).dropWhile fun c => !isExponent c with
  | _ :: exponent =>
      if isMantissa mantissa && Text.isDigits (unsigned exponent) then
        let value := valueOf mantissa text
        some (.ofFloat value (exponentialText value))
      else none
  | [] => none

def decimal? (text : Text) : Option Recognized :=
  if text.contains '.' && isMantissa (unsigned text) then
    let value := valueOf text text
    let fraction := withoutLines ((text.dropWhile (· != '.')).drop 1)
    some (.ofFloat value
      (if fraction.getLast? = some '0' then some (withFraction fraction.length value) else none))
  else none

/-! ### Numbers to the base of sixty -/

/-- The number nearest to a multiple of a number and another one together, neither
of which has a sign. -/
def multiplyAdd (factor : Nat) (first second : Binary64) : Binary64 :=
  match first, second with
  | .finite _ high exponent, .finite _ low lowExponent =>
      let (up, down) := Binary64.powerOfTwo exponent
      let (lowUp, lowDown) := Binary64.powerOfTwo lowExponent
      .ofFraction false (factor * high * up * lowDown + low * lowUp * down) (down * lowDown)
  | _, _ => .infinite false

def isSixty : Text → Bool
  | [c] => c.isDigit
  | [c, d] => '0' ≤ c && c ≤ '5' && d.isDigit
  | _ => false

/-- The parts between the colons of a numeral to the base of sixty, of which only
the last may have a fraction. -/
def sixties? (text : Text) : Option (List Text) :=
  match splitAt (· == ':') text with
  | first :: second :: rest =>
      let last := (second :: rest).getLastD []
      let fraction := last.dropWhile (· != '.')
      if isWhole first && ((second :: rest).dropLast ++ [last.takeWhile (· != '.')]).all isSixty &&
          (fraction.drop 1).all isDigitOrLine then
        some ((first :: second :: rest).map withoutLines)
      else none
  | _ => none

def padTwo (text : Text) : Text :=
  List.replicate (2 - text.length) '0' ++ text

/-- Cuts off what rounding leaves behind six zeros. -/
def withoutNoise : Text → Text
  | [] => []
  | c :: rest =>
      if startsWith "000000".toList (c :: rest) && rest.all Char.isDigit then []
      else c :: withoutNoise rest

def sixtyText (negative : Bool) (numerator denominator : Nat) : Text :=
  let seconds := Binary64.ofFraction false (numerator % (60 * denominator)) denominator
  let minutes := numerator / (60 * denominator)
  let parts := if minutes < 60 then [.ofNat minutes, seconds]
    else [.ofNat (minutes / 60), .ofNat (minutes % 60), seconds]
  (if negative && numerator != 0 then ['-'] else []) ++
    withoutNoise (intercalate [':'] (parts.map fun part => padTwo part.toText))

def ofSixties (negative : Bool) (parts : List Text) : Binary64 × Option Text :=
  let size := parts.foldl (fun value part =>
    multiplyAdd 1 (multiplyAdd 60 value (.ofNat 0)) (.ofNumeral part)) (.ofNat 0)
  match size with
  | .finite _ significand exponent =>
      let (up, down) := Binary64.powerOfTwo exponent
      (.finite negative significand exponent, some (sixtyText negative (significand * up) down))
  | _ => (.infinite negative, none)

def sexagesimal? (text : Text) : Option Recognized := do
  let parts ← sixties? (unsigned text)
  let (value, spelling) := ofSixties (isNegative text) parts
  some { kind := if text.contains '.' then "float" else "int", value := .number value, spelling }

/-! ### All kinds -/

def mergeKey : Text := "<<".toList

def numberOf? (text : Text) : Option Recognized :=
  radixInteger? "0b" 2 text <|> radixInteger? "0" 8 text <|> integer? text <|>
    radixInteger? "0x" 16 text <|> (special? text).map (.ofFloat ·) <|> exponential? text <|>
    decimal? text <|> sexagesimal? text

/-- What a text is in version 1.1, unless it is a string. -/
def recognize? (text : Text) : Option Recognized :=
  if isNullText text then some { kind := "null", value := .null, spelling := text }
  else if text = mergeKey then some { kind := "merge", value := .mergeMark }
  else match boolOf? text, numberOf? text with
    | some value, _ => some { kind := "bool", value := .bool value, spelling := text }
    | none, some found => some found
    | none, none => (Timestamp.read? text).map fun time =>
        { kind := "timestamp", value := .date time }

end LessonBook.Yaml.OlderScalar
