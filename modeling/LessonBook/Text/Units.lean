import LessonBook.Text.Basic

/-!
Texts measured in 16-bit units. A character beyond U+FFFF takes two units; all
widths and the order of names count in them.
-/

namespace LessonBook.Text

def unitsOf (c : Char) : Nat :=
  if c.toNat < 0x10000 then 1 else 2

def units (text : Text) : Nat :=
  text.foldl (fun count c => count + unitsOf c) 0

/-- One place per unit. The second place of a character of two units is empty. -/
def places (text : Text) : List (Option Char) :=
  text.flatMap fun c => if unitsOf c = 1 then [some c] else [some c, none]

def ofPlaces (places : List (Option Char)) : Text :=
  places.filterMap id

/-- The values of the units in order, first the high and then the low one of a pair. -/
def unitValues (text : Text) : List Nat :=
  text.flatMap fun c =>
    if unitsOf c = 1 then [c.toNat]
    else [0xD800 + (c.toNat - 0x10000) / 0x400, 0xDC00 + (c.toNat - 0x10000) % 0x400]

def lessValues : List Nat → List Nat → Bool
  | _, [] => false
  | [], _ :: _ => true
  | a :: as, b :: bs => a < b || (a == b && lessValues as bs)

def unitsLess (first second : Text) : Bool :=
  lessValues (unitValues first) (unitValues second)

end LessonBook.Text
