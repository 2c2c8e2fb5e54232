import LessonBook.Yaml.Document
import LessonBook.Yaml.Writing

/-!
What a program needs of a library for YAML, and the library of this project.
-/

namespace LessonBook.Yaml

/-- A library reads texts as values and writes records as texts. What a value holds may
lead back to the value itself. -/
structure Library where
  Value : Type
  Fault : Type
  content : Value → Content Value
  number : Binary64 → Value
  parse : Text → Except Fault Value
  stringify : Record Value → Except Fault Text

structure Graph where
  objects : Objects
  value : Value
  deriving Repr, DecidableEq

namespace Graph

def content (graph : Graph) : Content Graph :=
  (graph.value.content graph.objects).map fun value => { graph with value }

def number (value : Binary64) : Graph :=
  { objects := [], value := .scalar (.number value) }

def parse (text : Text) : Except Fault Graph :=
  (Document.evaluate text).map fun (objects, value) => { objects, value }

/-- Where the objects of a graph begin when those of all graphs stand in one row. -/
def offset (stores : List Objects) (graph : Graph) : Nat :=
  (stores.takeWhile (· ≠ graph.objects)).flatten.length

def moved (stores : List Objects) (graph : Graph) : Value :=
  graph.value.shift (offset stores graph)

/-- A record of values. Those that were read together have their objects in common. -/
def stringify (entries : Record Graph) : Except Fault Text :=
  let stores := (entries.map fun entry => entry.2.objects).eraseDups
  let objects := stores.flatMap fun objects => objects.map fun content =>
    content.map fun value => moved stores { objects, value }
  Writing.print objects (entries.map fun (key, graph) => (key, moved stores graph))

end Graph

abbrev library : Library where
  Value := Graph
  Fault := Fault
  content := Graph.content
  number := Graph.number
  parse := Graph.parse
  stringify := Graph.stringify

end LessonBook.Yaml
