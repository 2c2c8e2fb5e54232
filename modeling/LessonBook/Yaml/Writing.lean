import LessonBook.Yaml.Evaluation

/-!
Writes values as documents that read back as them. What is met more than once is
written once with an anchor, and afterwards as its alias.
-/

namespace LessonBook.Yaml.Writing

open Text

/-- The places met so far, and those of them met again, in the order of their
second meeting. -/
structure Meetings where
  once : List Nat := []
  twice : List Nat := []

def Meetings.meet (meetings : Meetings) (place : Nat) : Bool × Meetings :=
  if meetings.once.contains place then
    (true, if meetings.twice.contains place then meetings
      else { meetings with twice := meetings.twice ++ [place] })
  else (false, { meetings with once := place :: meetings.once })

def meetAll (objects : Objects) : Nat → Meetings → Value → Meetings
  | 0, meetings, _ => meetings
  | _, meetings, .scalar _ => meetings
  | fuel + 1, meetings, .object place =>
      let (known, met) := meetings.meet place
      if known then met
      else ((Value.object place).content objects).parts.foldl (meetAll objects fuel) met

def anchorName? (twice : List Nat) (place : Nat) : Option Text :=
  if twice.contains place then some ('a' :: Text.ofNat (twice.idxOf place + 1)) else none

abbrev Writer := StateT (List Nat) (Except Fault)

/-- An alias for what was written before, or else the node built from the label. -/
def labelled (twice : List Nat) (place : Nat) (build : Label → Writer Node) : Writer Node := do
  match anchorName? twice place with
  | none => build {}
  | some name => do
      let written ← get
      if written.contains place then pure (.reference name 0)
      else do
        set (place :: written)
        build { anchor := some name }

def keyNode (key : Text) : Node :=
  .scalar {} (.string key) .any

/-- Bytes are written as a record of their type and their values. -/
def bytesPairs (values : List Nat) : List (Node × Option Node) :=
  [(keyNode "type".toList, some (keyNode "Buffer".toList)),
    (keyNode "data".toList, some (.sequence {} .list
      (values.map fun value => .scalar {} (.number (.ofNat value)) .any)))]

def toNode (objects : Objects) (twice : List Nat) : Nat → Value → Writer Node
  | _, .scalar .mergeMark => throw .unwritable
  | _, .scalar value => pure (.scalar {} value .any)
  | 0, .object _ => throw .endless
  | fuel + 1, .object place => labelled twice place fun label =>
      match (Value.object place).content objects with
      | .scalar (.bytes values) => pure (.map label .record (bytesPairs values))
      | .scalar (.date time) => pure (.scalar label (.string (Timestamp.isoText time)) .any)
      | .scalar value => pure (.scalar label value .any)
      | .list items | .set items => do
          let nodes ← items.mapM (toNode objects twice fuel)
          pure (.sequence label .list nodes)
      | .record entries => do
          let pairs ← entries.mapM fun (key, value) => do
            let node ← toNode objects twice fuel value
            pure (keyNode key, some node)
          pure (.map label .record pairs)
      | .orderedMap entries => do
          let pairs ← entries.mapM fun (key, value) => do
            let keyNode ← toNode objects twice fuel key
            let node ← toNode objects twice fuel value
            pure (keyNode, some node)
          pure (.map label .record pairs)

/-- A new record as a document. No way into it passes more objects than there are. -/
def print (objects : Objects) (entries : Record Value) : Except Fault Text := do
  let all := objects ++ [.record entries]
  let root := Value.object objects.length
  let depth := all.length + 1
  let (node, _) ← (toNode all (meetAll all depth {} root).twice depth root).run []
  pure (Node.print {} node ++ ['\n'])

end LessonBook.Yaml.Writing
