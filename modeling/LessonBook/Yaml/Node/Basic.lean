import LessonBook.Yaml.Schema

/-!
The nodes of a document, numbered as they stand in it. A map keeps its entries in
their order, and a key may have no value. An alias means the last anchor of its
name in front of it.
-/

namespace LessonBook.Yaml

/-- What can be said of any node but an alias: its number, the name of its anchor,
and its tag in short form. -/
structure Label where
  number : Nat := 0
  anchor : Option Text := none
  tag : Option Text := none
  deriving Repr, DecidableEq

/-- An item of a sequence of pairs is a pair. -/
inductive MapKind where
  | record
  | set
  | pair
  deriving Repr, DecidableEq

inductive SequenceKind where
  | list
  | orderedMap
  deriving Repr, DecidableEq

inductive Node where
  | scalar (label : Label) (value : Scalar) (look : Look)
  | reference (name : Text) (number : Nat)
  | map (label : Label) (kind : MapKind) (pairs : List (Node × Option Node))
  | sequence (label : Label) (kind : SequenceKind) (items : List Node)
  deriving Repr, Inhabited

namespace Node

def empty : Node :=
  scalar {} .null (.plain (some []))

def label : Node → Label
  | scalar label _ _ => label
  | map label _ _ => label
  | sequence label _ _ => label
  | reference _ _ => {}

def isCollection : Node → Bool
  | map .. | sequence .. => true
  | _ => false

def scalar? : Node → Option Scalar
  | scalar _ value _ => some value
  | _ => none

def sameKey (first second : Node) : Bool :=
  match first.scalar?, second.scalar? with
  | some a, some b => a.same b
  | _, _ => false

/-- Whether a key merges maps into its own. In the older schema a plain string may. -/
def isMerge (schema : Schema) : Node → Bool
  | scalar _ .mergeMark _ => true
  | scalar _ (.string text) (.plain _) => schema = .older && text = OlderScalar.mergeKey
  | _ => false

mutual

def anchored : Node → List Node
  | reference .. => []
  | scalar label value look =>
      if label.anchor.isSome then [scalar label value look] else []
  | map label kind pairs =>
      (if label.anchor.isSome then [map label kind pairs] else []) ++ anchoredInPairs pairs
  | sequence label kind items =>
      (if label.anchor.isSome then [sequence label kind items] else []) ++ anchoredInItems items

def anchoredInPairs : List (Node × Option Node) → List Node
  | [] => []
  | (key, none) :: rest => anchored key ++ anchoredInPairs rest
  | (key, some value) :: rest => anchored key ++ anchored value ++ anchoredInPairs rest

def anchoredInItems : List Node → List Node
  | [] => []
  | item :: rest => anchored item ++ anchoredInItems rest

end

end Node

end LessonBook.Yaml
