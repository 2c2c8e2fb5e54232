import LessonBook.Yaml.OlderScalar

/-!
The schema of a document decides what its scalars are. Documents of version 1.1
have one of their own; all others have the core schema, to which tags for bytes,
dates and merge marks may be added by name.
-/

namespace LessonBook.Yaml

open Scalar

inductive Schema where
  | core
  | older
  deriving Repr, DecidableEq

def coreTag (name : String) : String :=
  "tag:yaml.org,2002:" ++ name

namespace Schema

def recognize? : Schema → Text → Option Recognized
  | core => Scalar.recognize?
  | older => OlderScalar.recognize?

def isSpecial (schema : Schema) (text : Text) : Bool :=
  (schema.recognize? text).isSome

/-- The value of a plain scalar. Only as a key it can be a merge mark. -/
def plain (schema : Schema) (isKey : Bool) (text : Text) : Scalar × Option Text :=
  match schema.recognize? text with
  | some found =>
      if found.value = mergeMark && !isKey then (string text, none)
      else (found.value, found.spelling)
  | none => (string text, none)

/-- The value of a scalar with a tag. Where the text does not fit the tag, or
the tag is not known, it is a string; only a date added by name has to fit. -/
def tagged? (schema : Schema) (tag text : Text) : Option (Scalar × Option Text) :=
  let kind := String.ofList tag
  if kind = coreTag "binary" then some (bytes (decodeBase64 text), none)
  else if schema = core ∧ kind = coreTag "timestamp" then
    (Timestamp.read? text).map fun time => (date time, none)
  else if schema = core ∧ kind = coreTag "merge" then some (mergeMark, none)
  else match schema.recognize? text with
    | some found =>
        some (if kind = coreTag found.kind then (found.value, found.spelling)
          else (string text, none))
    | none => some (string text, none)

end Schema

end LessonBook.Yaml
