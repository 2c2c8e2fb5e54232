import LessonBook.Number.Shortest
import LessonBook.Record

/-!
JSON values. Objects keep their keys in the order in which they were written. A
value may also hold bytes, which no JSON text spells: they are written as an
object of their type and their values.
-/

namespace LessonBook

inductive Json where
  | null
  | bool (value : Bool)
  | number (value : Binary64)
  | string (value : Text)
  | array (items : List Json)
  | object (entries : List (Text × Json))
  | bytes (values : List Nat)
  deriving Repr, Inhabited

namespace Json

def kind : Json → String
  | null => "null"
  | bool _ => "boolean"
  | number _ => "number"
  | string _ => "string"
  | array _ => "array"
  | object _ | bytes _ => "object"

def ofNat (value : Nat) : Json :=
  number (Binary64.ofNat value)

def ofString (value : String) : Json :=
  string value.toList

def find? (key : String) : Json → Option Json
  | object entries => Record.find? key.toList entries
  | _ => none

end Json

end LessonBook
