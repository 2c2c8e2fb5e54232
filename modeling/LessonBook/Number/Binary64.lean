import LessonBook.Text.Basic

/-!
Binary floating-point numbers with a 53-bit significand, as exact integers. The
only operation is rounding of a quotient, to the nearest and in a tie to the
even significand.
-/

namespace LessonBook

/-- A finite number is `significand * 2 ^ exponent` with its sign; a significand
below 2⁵² comes only with the least exponent, −1074. -/
inductive Binary64 where
  | finite (negative : Bool) (significand : Nat) (exponent : Int)
  | infinite (negative : Bool)
  | nan
  deriving DecidableEq, Repr

namespace Binary64

def leastExponent : Int := -1074

def greatestExponent : Int := 971

def isZero : Binary64 → Bool
  | finite _ significand _ => significand == 0
  | _ => false

/-- Equality of numbers: the two zeros are equal, and nothing equals `nan`. -/
def same (x y : Binary64) : Bool :=
  x != nan && (x == y || (x.isZero && y.isZero))

def powerOfTwo (exponent : Int) : Nat × Nat :=
  (Nat.pow 2 exponent.toNat, Nat.pow 2 (-exponent).toNat)

/-- The nearest integer to a fraction; of two equally near ones the even. -/
def roundHalfEven (numerator denominator : Nat) : Nat :=
  let quotient := numerator / denominator
  let twice := 2 * (numerator % denominator)
  if twice < denominator then quotient
  else if denominator < twice then quotient + 1
  else if quotient % 2 = 0 then quotient else quotient + 1

def scaled (numerator denominator : Nat) (exponent : Int) : Nat :=
  let (up, down) := powerOfTwo exponent
  roundHalfEven (numerator * down) (denominator * up)

/-- The exponent at which a positive fraction has a 53-bit significand. -/
def exponentOf (numerator denominator : Nat) : Int :=
  let guess : Int := (numerator.log2 : Int) - denominator.log2 - 52
  let (up, down) := powerOfTwo guess
  let exact := if numerator * down < denominator * up * Nat.pow 2 52 then guess - 1 else guess
  max leastExponent exact

def ofFraction (negative : Bool) (numerator denominator : Nat) : Binary64 :=
  if numerator = 0 then finite negative 0 leastExponent
  else
    let exponent := exponentOf numerator denominator
    let significand := scaled numerator denominator exponent
    let (significand, exponent) :=
      if significand = Nat.pow 2 53 then (Nat.pow 2 52, exponent + 1) else (significand, exponent)
    if greatestExponent < exponent then infinite negative
    else finite negative significand exponent

def ofNat (value : Nat) : Binary64 :=
  ofFraction false value 1

/-- The number nearest to `digits * 10 ^ scale`. Beyond four hundred places in
front of or behind the point nothing but infinity and zero is left. -/
def ofDecimal (negative : Bool) (digits : Text) (scale : Int) : Binary64 :=
  let significant := digits.dropWhile (· == '0')
  let places := (significant.length : Int) + scale
  if significant.isEmpty || places < -400 then finite negative 0 leastExponent
  else if 400 < places then infinite negative
  else
    let value := Text.digitsValue significant
    if 0 ≤ scale then ofFraction negative (value * Nat.pow 10 scale.toNat) 1
    else ofFraction negative value (Nat.pow 10 (-scale).toNat)

def sign : Text → Bool × Text
  | '-' :: rest => (true, rest)
  | '+' :: rest => (false, rest)
  | text => (false, text)

def exponentPart (text : Text) : Int :=
  match text with
  | [] => 0
  | _ :: rest =>
      let (negative, digits) := sign rest
      let value : Int := Text.digitsValue (digits.takeWhile Char.isDigit)
      if negative then -value else value

/-- The number that a decimal numeral denotes: a sign, digits with a point
among them, and an exponent, each of which may be missing. -/
def ofNumeral (numeral : Text) : Binary64 :=
  let (negative, unsigned) := sign numeral
  let whole := unsigned.takeWhile Char.isDigit
  let afterWhole := unsigned.dropWhile Char.isDigit
  let (fraction, rest) := match afterWhole with
    | '.' :: more => (more.takeWhile Char.isDigit, more.dropWhile Char.isDigit)
    | _ => ([], afterWhole)
  ofDecimal negative (whole ++ fraction) (exponentPart rest - fraction.length)

end Binary64

end LessonBook
