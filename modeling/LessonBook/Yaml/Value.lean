import LessonBook.Record
import LessonBook.Text.Utf8
import LessonBook.Yaml.Node.Printer

/-!
The values of a document. Collections, bytes and dates are objects, to which a
value refers by their place; so an object may be met more than once, and inside
itself.
-/

namespace LessonBook.Yaml

open Text

inductive Content (Part : Type) where
  | scalar (value : Scalar)
  | list (items : List Part)
  | record (entries : List (Text × Part))
  | orderedMap (entries : List (Part × Part))
  | set (items : List Part)
  deriving Repr, DecidableEq

namespace Content

variable {Part Other : Type}

def parts : Content Part → List Part
  | scalar _ => []
  | list items | set items => items
  | record entries => entries.map Prod.snd
  | orderedMap entries => entries.flatMap fun (key, value) => [key, value]

def map (change : Part → Other) : Content Part → Content Other
  | scalar value => scalar value
  | list items => list (items.map change)
  | record entries => record (entries.map fun (key, value) => (key, change value))
  | orderedMap entries => orderedMap (entries.map fun (key, value) => (change key, change value))
  | set items => set (items.map change)

end Content

inductive Value where
  | scalar (value : Scalar)
  | object (place : Nat)
  deriving Repr, DecidableEq, Inhabited

abbrev Objects := List (Content Value)

namespace Value

def content (objects : Objects) : Value → Content Value
  | scalar value => .scalar value
  | object place => objects.getD place (.scalar .null)

def shift (count : Nat) : Value → Value
  | scalar value => scalar value
  | object place => object (place + count)

def isMergeMark : Value → Bool
  | scalar .mergeMark => true
  | _ => false

def same : Value → Value → Bool
  | scalar a, scalar b => a.sameOrNan b
  | object place, object other => place == other
  | _, _ => false

/-! ### The texts of keys -/

def scalarText : Scalar → Text
  | .null => "null".toList
  | .bool true => "true".toList
  | .bool false => "false".toList
  | .number value => value.toText
  | .string text => text
  | .bytes values => Utf8.decode values
  | .date time => Timestamp.longText time
  | .mergeMark => "Symbol(<<)".toList

/-- The text of a key in a record: a collection is written out, and so is the alias
of an object. -/
def keyText (schema : Schema) (key : Node) : Value → Text
  | scalar .null => []
  | scalar value => scalarText value
  | object _ =>
      match key with
      | .scalar _ value _ => scalarText value
      | _ => key.keyText schema

/-- The text of an object as a name. The items of a list stand between commas; there
are none of a list inside itself. -/
def nameText (objects : Objects) : Nat → List Nat → Value → Text
  | 0, _, _ => []
  | _, _, scalar value => scalarText value
  | fuel + 1, path, object place =>
      match content objects (object place) with
      | .scalar value => scalarText value
      | .list items =>
          if path.contains place then []
          else intercalate [','] (items.map fun item =>
            if item = scalar .null then [] else nameText objects fuel (place :: path) item)
      | .record _ => "[object Object]".toList
      | .orderedMap _ => "[object Map]".toList
      | .set _ => "[object Set]".toList

def name? (objects : Objects) : Value → Option Text
  | scalar .mergeMark => none
  | key => some (nameText objects (objects.length + 1) [] key)

end Value

end LessonBook.Yaml
