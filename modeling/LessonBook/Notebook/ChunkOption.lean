import LessonBook.Notebook.Basic

/-!
The options in the header of a code chunk: a label, and settings between commas.
Truth values, numbers and quoted texts are read as such; all else is kept as it
is written.
-/

namespace LessonBook

open Text

namespace ChunkOption

def isNumeral (text : Text) : Bool :=
  let unsigned := match text with
    | '-' :: rest => rest
    | _ => text
  match unsigned.dropWhile Char.isDigit with
  | [] => isDigits unsigned
  | '.' :: fraction => isDigits (unsigned.takeWhile Char.isDigit) && isDigits fraction
  | _ => false

def unquote? (text : Text) : Option Text :=
  match text with
  | quote :: rest =>
      if (quote == '"' || quote == '\'') && rest.getLast? = some quote &&
          !rest.dropLast.any isTerminator then
        some rest.dropLast
      else none
  | [] => none

def valueOf (text : Text) : Json :=
  if text = "TRUE".toList || text = "T".toList then .bool true
  else if text = "FALSE".toList || text = "F".toList then .bool false
  else if isNumeral text then .number (.ofNumeral text)
  else match unquote? text with
    | some inner => .string inner
    | none => .string text

/-- Adds one part. The first part without an equals sign is the label. -/
def add (isFirst : Bool) (part : Text) (options : Metadata) : Metadata :=
  if part.contains '=' then
    let key := trim (part.takeWhile (· != '='))
    let value := trim ((part.dropWhile (· != '=')).drop 1)
    if key.isEmpty then options else Record.assign key (valueOf value) options
  else if isFirst then Record.put "name".toList (.string part) options
  else options

def addAll (options : Metadata) : List Text → Metadata
  | [] => options
  | part :: parts => addAll (add false part options) parts

def parse (text : Text) : Metadata :=
  match ((splitAt (· == ',') text).map trim).filter (!·.isEmpty) with
  | [] => []
  | first :: parts => addAll (add true first []) parts

end ChunkOption

end LessonBook
