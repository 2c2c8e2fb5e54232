import LessonBook.Yaml.Node.Basic
import LessonBook.Yaml.ScalarPrinter

/-!
Writes nodes: collections as blocks with two columns of indentation per level,
and inside a flow collection between brackets.
-/

namespace LessonBook.Yaml

open Text

namespace Label

def text (label : Label) : Text :=
  intercalate [' '] ((label.anchor.map ('&' :: ·)).toList ++ label.tag.toList)

def widen (label : Label) (startWidth : Option Nat) : Option Nat :=
  if label.text.isEmpty then startWidth else some (startWidth.getD 0 + label.text.units + 1)

end Label

namespace Node

def isScalar : Node → Bool
  | scalar .. => true
  | _ => false

def needsMark : Node → Bool
  | scalar _ _ look => look = .literal || look = .folded
  | _ => true

def isEmptyCollection : Node → Bool
  | map _ _ [] => true
  | sequence _ _ [] => true
  | _ => false

def blanks (count : Nat) : Text :=
  List.replicate count ' '

def stack (indent : Nat) (lines : List Text) : Text :=
  intercalate ('\n' :: blanks indent) lines

def withCommas : List Text → List Text
  | [] => []
  | [last] => [last]
  | line :: rest => (line ++ [',']) :: withCommas rest

/-- The entries of a flow collection between its brackets, on one line if they fit. -/
def bracket (opening closing : Char) (indent : Nat) (entries : List Text) : Text :=
  if entries.isEmpty then [opening, closing]
  else
    let lines := withCommas entries
    let width := lines.foldl (fun sum line => sum + line.units + 2) 2
    if entries.any (·.contains '\n') || 80 < width then
      opening :: lines.flatMap (fun line => '\n' :: blanks (indent + 2) ++ line) ++
        '\n' :: blanks indent ++ [closing]
    else opening :: ' ' :: intercalate [' '] lines ++ [' ', closing]

/-- A node behind its label. What is not on the line of the label begins on a new one. -/
def labelled (label : Label) (indent : Nat) (onLine : Bool) (body : Text) : Text :=
  if label.text.isEmpty then body
  else if onLine || body.head? = some '\x7b' || body.head? = some '[' then
    label.text ++ ' ' :: body
  else label.text ++ '\n' :: blanks indent ++ body

def labelOnly (text : Text) : Bool :=
  let first := text.takeWhile (· != '\n')
  let words := splitAt (· == ' ') first
  first.length < text.length &&
    match words with
    | ['&' :: _] | ['!' :: _] => true
    | ['&' :: _, '!' :: _] => true
    | _ => false

def gap (place : Place) (isExplicit : Bool) (value : Node) (text : Text) : Text :=
  if !isExplicit && value.isCollection then
    if text.contains '\n' || !(place.inFlow || value.isEmptyCollection) then
      if labelOnly text then [' '] else '\n' :: blanks place.indent
    else [' ']
  else if text.isEmpty || text.head? = some '\n' then []
  else [' ']

/-- A key is longer than this only behind a mark. -/
def keyWidth : Nat := 1024

def mapInside (kind : MapKind) (place : Place) : Place :=
  if place.inFlow && kind ≠ .pair then { place with indent := place.indent + 2 } else place

def sequenceInside (place : Place) : Place :=
  { place with indent := place.indent + (if place.inFlow then 4 else 2) }

/-- The entry of a pair stands without brackets. -/
def mapText (place : Place) (kind : MapKind) (entries : List Text) : Text :=
  if kind ≠ .pair && (place.inFlow || entries.isEmpty) then
    bracket '\x7b' '\x7d' place.indent entries
  else stack place.indent entries

def sequenceText (place : Place) (entries : List Text) : Text :=
  if place.inFlow || entries.isEmpty then bracket '[' ']' place.indent entries
  else stack place.indent (entries.map fun entry => '-' :: ' ' :: entry)

/-- In a set, and where no key has a value, keys stand alone. -/
def keysOnly (kind : MapKind) (pairs : List (Node × Option Node)) : Bool :=
  kind = .set || (kind = .record && pairs.all fun pair => pair.2.isNone)

def keyFront (place : Place) (isExplicit : Bool) (text : Text) : Text :=
  if isExplicit then ['?', ' '] ++ text ++ '\n' :: blanks place.indent ++ [':'] else text ++ [':']

def loneKey (place : Place) (isExplicit : Bool) (text : Text) : Text :=
  if place.inFlow then
    if text.isEmpty then ['?'] else if isExplicit then ['?', ' '] ++ text else text
  else ['?', ' '] ++ text

mutual

def print (place : Place) : Node → Text
  | reference name _ => '*' :: name ++ (if place.isKey then [' '] else [])
  | scalar label value look =>
      let place := { place with startWidth := label.widen place.startWidth }
      labelled label place.indent true (ScalarPrinter.scalar place look value)
  | map label kind pairs =>
      let place := { place with startWidth := label.widen place.startWidth }
      labelled label place.indent false
        (mapText place kind (printPairs (mapInside kind place) (keysOnly kind pairs) pairs))
  | sequence label _ items =>
      let place := { place with startWidth := label.widen place.startWidth }
      labelled label place.indent false (sequenceText place (printItems (sequenceInside place) items))

def printPairs (place : Place) (alone : Bool) : List (Node × Option Node) → List Text
  | [] => []
  | (key, value) :: rest =>
      let inner := { place with indent := place.indent + 2 }
      let text := print { inner with isKey := !key.needsMark && !alone } key
      let isExplicit := key.needsMark || (!place.inFlow && keyWidth < text.units)
      let front := keyFront place isExplicit text
      let entry :=
        match value with
        | some value =>
            let start := if !isExplicit && value.isScalar then some (front.units + 1)
              else key.label.widen place.startWidth
            let inner := { inner with isKey := false, startWidth := start }
            let valueText := print inner value
            if alone then loneKey place isExplicit text
            else front ++ gap inner isExplicit value valueText ++ valueText
        | none => loneKey place isExplicit text
      entry :: printPairs place alone rest

/-- The labels of earlier items widen the first line of later ones. -/
def printItems (place : Place) : List Node → List Text
  | [] => []
  | item :: rest =>
      print place item :: printItems
        { place with startWidth := item.label.widen place.startWidth } rest

end

/-- A collection that serves as a key, in flow style and without its label. -/
def keyText (schema : Schema) : Node → Text
  | map _ kind pairs =>
      mapText { schema, inFlow := true } kind
        (printPairs { schema, indent := 2, inFlow := true } (keysOnly kind pairs) pairs)
  | sequence _ _ items =>
      sequenceText { schema, inFlow := true } (printItems { schema, indent := 4, inFlow := true } items)
  | other => print { schema, inFlow := true } other

end Node

end LessonBook.Yaml
