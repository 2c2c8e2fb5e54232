import LessonBook.Number.Shortest
import LessonBook.Yaml.ScalarText

/-!
The values of scalars, and the rules of the core schema: the text of a plain
scalar alone tells whether it is null, a boolean, a number or a string.
-/

namespace LessonBook.Yaml

/-- A key that is the merge mark merges other maps into its own. -/
inductive Scalar where
  | null
  | bool (value : Bool)
  | number (value : Binary64)
  | string (value : Text)
  | bytes (values : List Nat)
  | date (time : Int)
  | mergeMark
  deriving Repr, DecidableEq, Inhabited

/-- How a scalar is written when it is printed as it stands: a plain scalar that
is no string may keep its own spelling. -/
inductive Look where
  | plain (spelling : Option Text)
  | singleQuoted
  | doubleQuoted
  | literal
  | folded
  | any
  deriving Repr, DecidableEq, Inhabited

namespace Scalar

/-- Whether two keys are the same. No number is the same as `nan`; bytes, dates and
merge marks are never the same. -/
def same : Scalar → Scalar → Bool
  | null, null => true
  | bool a, bool b => a == b
  | number a, number b => a.same b
  | string a, string b => a == b
  | _, _ => false

def sameOrNan (a b : Scalar) : Bool :=
  a.same b || (a = number .nan && b = number .nan)

def unsigned : Text → Text
  | '-' :: rest | '+' :: rest => rest
  | text => text

def isNullText (text : Text) : Bool :=
  text.isEmpty || ["~", "null", "Null", "NULL"].contains (String.ofList text)

def boolOf? (text : Text) : Option Bool :=
  match String.ofList text with
  | "true" | "True" | "TRUE" => some true
  | "false" | "False" | "FALSE" => some false
  | _ => none

def radixValue? (radix : Nat) (digits : Text) : Option Nat :=
  if digits.isEmpty then none
  else digits.foldlM (fun value digit =>
    match ScalarText.hexValue? digit with
    | some next => if next < radix then some (radix * value + next) else none
    | none => none) 0

def octal? : Text → Option Nat
  | '0' :: 'o' :: digits => radixValue? 8 digits
  | _ => none

def hexadecimal? : Text → Option Nat
  | '0' :: 'x' :: digits => radixValue? 16 digits
  | _ => none

def isInteger (text : Text) : Bool :=
  Text.isDigits (unsigned text)

def special? (text : Text) : Option Binary64 :=
  if [".nan", ".NaN", ".NAN"].contains (String.ofList text) then some .nan
  else if [".inf", ".Inf", ".INF"].contains (String.ofList (unsigned text)) then
    some (.infinite (text.head? = some '-'))
  else none

/-- Digits with a point among them, of which at least one stands in front of the
point or behind it. -/
def isDecimal (text : Text) : Bool :=
  match text.dropWhile Char.isDigit with
  | '.' :: fraction =>
      fraction.all Char.isDigit && (text.head? != some '.' || !fraction.isEmpty)
  | _ => false

def isExponent (c : Char) : Bool :=
  c == 'e' || c == 'E'

def isExponential (text : Text) : Bool :=
  let mantissa := (unsigned text).takeWhile fun c => !isExponent c
  match (unsigned text).dropWhile fun c => !isExponent c with
  | _ :: exponent =>
      (Text.isDigits mantissa || isDecimal mantissa) && Text.isDigits (unsigned exponent)
  | [] => false

/-- The text of a number in a document: that of a JSON number, but with a sign
for the negative zero and with names for what is not finite. -/
def numberText : Binary64 → Text
  | .finite true 0 _ => ['-', '0']
  | .infinite negative => (if negative then ['-'] else []) ++ ".inf".toList
  | .nan => ".nan".toList
  | value => value.toText

def exponentialText : Binary64 → Text
  | .finite negative significand exponent =>
      if significand = 0 then "0e+0".toList
      else
        let (digits, point) := Binary64.shortestDigits significand exponent
        (if negative then ['-'] else []) ++
          Binary64.layOut { places := 0, leadingZeros := 0 } digits point
  | value => numberText value

def withFraction (count : Nat) (value : Binary64) : Text :=
  let text := numberText value
  if text.any isExponent then text
  else
    match text.dropWhile (· != '.') with
    | _ :: fraction => text ++ List.replicate (count - fraction.length) '0'
    | [] => text ++ '.' :: List.replicate count '0'

def wholePart : Binary64 → Nat
  | .finite _ significand exponent =>
      let (up, down) := Binary64.powerOfTwo exponent
      significand * up / down
  | _ => 0

def radixText? (lead : String) (radix : Nat) : Binary64 → Option Text
  | value@(.finite negative significand _) =>
      some ((if negative && significand != 0 then ['-'] else []) ++ lead.toList ++
        Nat.toDigits radix (wholePart value))
  | _ => none

/-- What the text of a scalar tells of it: the name of its kind, its value, and
how it is spelled when printed. -/
structure Recognized where
  kind : String
  value : Scalar
  spelling : Option Text := none

def Recognized.ofInteger (lead : String) (radix : Nat) (value : Binary64) : Recognized :=
  { kind := "int", value := number value, spelling := radixText? lead radix value }

def Recognized.ofFloat (value : Binary64) (spelling : Option Text := none) : Recognized :=
  { kind := "float", value := number value, spelling }

def numberOf? (text : Text) : Option Recognized :=
  match octal? text, hexadecimal? text, special? text with
  | some value, _, _ => some (.ofInteger "0o" 8 (.ofNat value))
  | none, some value, _ => some (.ofInteger "0x" 16 (.ofNat value))
  | none, none, some value => some (.ofFloat value)
  | none, none, none =>
      if isInteger text then some { kind := "int", value := number (.ofNumeral text) }
      else if isExponential text then
        let value := Binary64.ofNumeral text
        some (.ofFloat value (exponentialText value))
      else if isDecimal (unsigned text) then
        let value := Binary64.ofNumeral text
        let fraction := (text.dropWhile (· != '.')).drop 1
        some (.ofFloat value (if text.getLast? = some '0' then some (withFraction fraction.length value)
          else none))
      else none

def recognize? (text : Text) : Option Recognized :=
  if isNullText text then some { kind := "null", value := null, spelling := text }
  else match boolOf? text with
    | some value => some { kind := "bool", value := bool value, spelling := text }
    | none => numberOf? text

/-! ### Bytes -/

def sixBits? (c : Char) : Option Nat :=
  if 'A' ≤ c && c ≤ 'Z' then some (c.toNat - 65)
  else if 'a' ≤ c && c ≤ 'z' then some (c.toNat - 71)
  else if c.isDigit then some (c.toNat + 4)
  else if c == '+' || c == '-' then some 62
  else if c == '/' || c == '_' then some 63
  else none

/-- Four groups of six bits make three bytes; groups that fill no byte are dropped. -/
def bytesOf : List Nat → List Nat
  | a :: b :: c :: d :: rest =>
      [4 * a + b / 16, b % 16 * 16 + c / 4, c % 4 * 64 + d] ++ bytesOf rest
  | [a, b, c] => [4 * a + b / 16, b % 16 * 16 + c / 4]
  | [a, b] => [4 * a + b / 16]
  | _ => []

def decodeBase64 (text : Text) : List Nat :=
  bytesOf (text.filterMap sixBits?)

def base64Digit (bits : Nat) : Char :=
  if bits < 26 then Char.ofNat (65 + bits)
  else if bits < 52 then Char.ofNat (71 + bits)
  else if bits < 62 then Char.ofNat (bits - 4)
  else if bits = 62 then '+'
  else '/'

/-- Three bytes make four digits; the last group is filled up with equals signs. -/
def encodeBase64 : List Nat → Text
  | a :: b :: c :: rest =>
      [a / 4, a % 4 * 16 + b / 16, b % 16 * 4 + c / 64, c % 64].map base64Digit ++
        encodeBase64 rest
  | [a, b] => [a / 4, a % 4 * 16 + b / 16, b % 16 * 4].map base64Digit ++ ['=']
  | [a] => [a / 4, a % 4 * 16].map base64Digit ++ ['=', '=']
  | [] => []

end Scalar

end LessonBook.Yaml
