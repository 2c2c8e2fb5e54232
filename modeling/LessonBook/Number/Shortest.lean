import LessonBook.Number.Binary64

/-!
The fewest decimal digits that read back as a number, and the two ways to lay
them out: positionally for numbers of moderate size, with an exponent for others.
-/

namespace LessonBook

namespace Binary64

/-- The reals that round to a positive number, as a fraction interval over one
denominator; the ends belong to it when the significand is even. -/
structure Neighbourhood where
  low : Nat
  value : Nat
  high : Nat
  denominator : Nat
  closed : Bool
  deriving Repr

def neighbourhood (significand : Nat) (exponent : Int) : Neighbourhood :=
  let (up, down) := powerOfTwo (exponent - 2)
  let below := if significand = Nat.pow 2 52 && leastExponent < exponent then 1 else 2
  ⟨(4 * significand - below) * up, 4 * significand * up, (4 * significand + 2) * up, down,
    significand % 2 == 0⟩

namespace Neighbourhood

def contains (around : Neighbourhood) (digits : Nat) (scale : Int) : Bool :=
  let candidate := digits * Nat.pow 10 scale.toNat * around.denominator
  let shift := Nat.pow 10 (-scale).toNat
  if around.closed then around.low * shift ≤ candidate && candidate ≤ around.high * shift
  else around.low * shift < candidate && candidate < around.high * shift

/-- The value counted in units of `10 ^ scale`, rounded down, and twice the rest
compared with the unit. -/
def units (around : Neighbourhood) (scale : Int) : Nat × Ordering :=
  let numerator := around.value * Nat.pow 10 (-scale).toNat
  let unit := around.denominator * Nat.pow 10 scale.toNat
  (numerator / unit, compare (2 * (numerator % unit)) unit)

/-- The nearer of the two neighbours of the value on the grid of `10 ^ scale`
that read back, if one does; of two equally near ones the even. -/
def onGrid? (around : Neighbourhood) (scale : Int) : Option Nat :=
  let (below, half) := around.units scale
  match around.contains below scale, around.contains (below + 1) scale with
  | true, true =>
      match half with
      | .lt => some below
      | .gt => some (below + 1)
      | .eq => some (if below % 2 = 0 then below else below + 1)
  | true, false => some below
  | false, true => some (below + 1)
  | false, false => none

/-- The number of decimal places in front of the point; for a value below one
it is the number of zeros behind the point, negated. -/
def places (around : Neighbourhood) : Int :=
  let whole := around.value / around.denominator
  if 0 < whole then (Nat.toDigits 10 whole).length
  else
    Int.neg ((List.range 400).findIdx fun count =>
      around.denominator ≤ around.value * Nat.pow 10 (count + 1))

def shortest (around : Neighbourhood) (scale : Int) : Nat → Nat × Int
  | 0 => ((around.units scale).1, scale)
  | count + 1 =>
      match around.onGrid? scale with
      | some digits => (digits, scale)
      | none => shortest around (scale - 1) count

end Neighbourhood

/-- The shortest digits of a positive number, without zeros at the end, and the
place of the point in front of which they stand. -/
def shortestDigits (significand : Nat) (exponent : Int) : Text × Int :=
  let around := neighbourhood significand exponent
  let (value, scale) := around.shortest (around.places - 1) 17
  let digits := Nat.toDigits 10 value
  (Text.dropEndWhile (· == '0') digits, (digits.length : Int) + scale)

/-- Positional notation is used when the point stands behind at most this many
places, and before at most `leadingZeros` zeros; otherwise an exponent is written. -/
structure Layout where
  places : Int := 21
  leadingZeros : Int := 6
  deriving Repr

def zeros (count : Int) : Text :=
  List.replicate count.toNat '0'

/-- Lays digits out; their value is `0.digits * 10 ^ point`. -/
def layOut (layout : Layout) (digits : Text) (point : Int) : Text :=
  let count : Int := digits.length
  if 0 < point && point ≤ layout.places then
    if count ≤ point then digits ++ zeros (point - count)
    else digits.take point.toNat ++ ['.'] ++ digits.drop point.toNat
  else if point ≤ 0 && -layout.leadingZeros < point then
    ['0', '.'] ++ zeros (-point) ++ digits
  else
    let exponent := point - 1
    let mantissa := if count = 1 then digits else digits.take 1 ++ ['.'] ++ digits.drop 1
    mantissa ++ ['e', if exponent < 0 then '-' else '+'] ++ Text.ofNat exponent.natAbs

def magnitudeText (significand : Nat) (exponent : Int) : Text :=
  if significand = 0 then ['0']
  else
    let (digits, point) := shortestDigits significand exponent
    layOut {} digits point

def toText : Binary64 → Text
  | finite negative significand exponent =>
      (if negative && significand != 0 then ['-'] else []) ++ magnitudeText significand exponent
  | infinite negative => (if negative then ['-'] else []) ++ "Infinity".toList
  | nan => "NaN".toList

end Binary64

end LessonBook
