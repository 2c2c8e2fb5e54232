import LessonBook.Yaml.Evaluation
import LessonBook.Yaml.Node.Composition
import LessonBook.Yaml.Outline.Builder

/-!
Reads the one document of a YAML text.
-/

namespace LessonBook.Yaml

namespace Document

/-- What is known of a stream: what its directives declare, whether a document has
to begin with its marker, and the schema and the node of its document. -/
structure Reading where
  directives : Directives := {}
  needsMarker : Bool := false
  content : Option (Schema × Node) := none

def contentOf? (directives : Directives) (start : List Mark) (content : Option Outline)
    (tail : List Mark) : Option (Bool × Node) := do
  let properties ← Properties.read?
    { indicator := .documentStart, atLineStart := true, following := .ofEither content tail } start
  let onMarkerLine := properties.indicator.isSome && !properties.hasNewline &&
    content.any Outline.isBlockCollection
  if onMarkerLine || !tailFits false false tail then none
  else
    let (node, _) ← Node.ofOptional directives .root properties content 0
    some (properties.indicator.isSome, node)

def readItem (item : StreamItem) (reading : Reading) : Option Reading :=
  match item with
  | .directive text =>
      (reading.directives.read? text).map fun directives =>
        { reading with directives, needsMarker := true }
  | .documentEnd tail =>
      if reading.content.isSome && tailFits true false tail then some reading else none
  | .document _ start content tail =>
      if reading.content.isSome then none
      else do
        let (hasMarker, node) ← contentOf? reading.directives start content tail
        if reading.needsMarker && !hasMarker then none
        else some { reading with
          needsMarker := false, content := some (reading.directives.schema, node) }

/-- The only document; a text without one is an empty node. -/
def read? (text : Text) : Option (Schema × Node) := do
  let items ← StreamItem.ofText? text
  let reading ← items.foldlM (fun reading item => readItem item reading) ({} : Reading)
  match reading.content with
  | some found => some found
  | none => if reading.needsMarker then none else some (reading.directives.schema, Node.empty)

/-- The value of the document in a text whose lines end in newlines only. -/
def evaluate (text : Text) : Except Fault (Objects × Value) :=
  match read? text with
  | none => .error .malformed
  | some (schema, node) => Evaluation.evaluate schema node

end Document

end LessonBook.Yaml
