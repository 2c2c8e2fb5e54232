import LessonBook.Yaml.Value

/-!
Evaluates the nodes of a document. An alias has the value of its anchor, so what
an alias means is evaluated once; but a merge evaluates the maps that it names anew.
-/

namespace LessonBook.Yaml

open Text

inductive Fault where
  /-- A rule of the format is broken. -/
  | malformed
  /-- An alias has no anchor in front of it, or is used too often. -/
  | unresolved
  /-- What is merged is no map. -/
  | mergeSource
  | repeatedKey
  /-- A map merges itself. -/
  | endless
  /-- A merge mark is no value that can be written. -/
  | unwritable
  deriving DecidableEq, Repr

namespace Evaluation

/-- An anchor with its value, how often it was used, and how much one use weighs. -/
structure Binding where
  number : Nat
  value : Value
  uses : Nat := 1
  weight : Nat := 0
  deriving Repr

/-- The objects so far, the anchors that have values, and the places of bytes and
dates by the numbers of their nodes. -/
structure State where
  objects : Objects := []
  bindings : List Binding := []
  leaves : List (Nat × Nat) := []
  deriving Repr

abbrev Evaluating := StateT State (Except Fault)

structure Context where
  schema : Schema
  anchored : List Node

def Context.target? (context : Context) (name : Text) (number : Nat) : Option Node :=
  (context.anchored.filter fun node =>
    node.label.anchor = some name && node.label.number < number).getLast?

def find? (number : Nat) (bindings : List Binding) : Option Binding :=
  bindings.find? (·.number = number)

def update (number : Nat) (change : Binding → Binding) (bindings : List Binding) : List Binding :=
  bindings.map fun binding => if binding.number = number then change binding else binding

def allocate (content : Content Value) : Evaluating Nat := fun state =>
  .ok (state.objects.length, { state with objects := state.objects ++ [content] })

def fill (place : Nat) (content : Content Value) : Evaluating Unit :=
  modify fun state => { state with objects := state.objects.set place content }

/-- Binds the anchor of a node, if it has one, in place of an earlier value. -/
def bind (label : Label) (value : Value) : Evaluating Unit :=
  if label.anchor.isSome then
    modify fun state => { state with
      bindings := { number := label.number, value } ::
        state.bindings.filter (·.number ≠ label.number) }
  else pure ()

def leaf (number : Nat) (value : Scalar) : Evaluating Value := do
  let state ← get
  match state.leaves.find? (·.1 = number) with
  | some (_, place) => pure (.object place)
  | none => do
      let place ← allocate (.scalar value)
      modify fun state => { state with leaves := (number, place) :: state.leaves }
      pure (.object place)

/-! ### Aliases -/

def weightLimit : Nat := 100

section Weight

variable (context : Context) (bindings : List Binding)

mutual

/-- How often aliases multiply a node: once for a scalar, and for a collection
as often as for the heaviest node in it. -/
def weigh : Node → Nat
  | .scalar .. => 1
  | .reference name number =>
      match (context.target? name number).bind fun node => find? node.label.number bindings with
      | some binding => binding.uses * binding.weight
      | none => 0
  | .map _ _ pairs => weighPairs pairs
  | .sequence _ _ items => weighItems items

def weighOptional : Option Node → Nat
  | some node => weigh node
  | none => 1

def weighPairs : List (Node × Option Node) → Nat
  | [] => 0
  | (key, value) :: rest => max (max (weigh key) (weighOptional value)) (weighPairs rest)

def weighItems : List Node → Nat
  | [] => 0
  | item :: rest => max (weigh item) (weighItems rest)

end

end Weight

/-- The ways to what an alias means: to the value of a node, and to its entries. -/
structure Jumps where
  value : Node → Evaluating Value
  entries : Node → Evaluating (List (Value × Value))

def useAnchor (context : Context) (node : Node) : Evaluating Value := do
  let state ← get
  let number := node.label.number
  match find? number state.bindings with
  | none => throw .unresolved
  | some binding =>
      let used := update number (fun b => { b with uses := b.uses + 1 }) state.bindings
      let weight := if binding.weight = 0 then weigh context used node else binding.weight
      if weightLimit < (binding.uses + 1) * weight then throw .unresolved
      else do
        set { state with bindings := update number (fun b => { b with weight }) used }
        pure binding.value

/-- The value of an alias. A node that was only merged so far has none yet. -/
def useAlias (context : Context) (jumps : Jumps) (name : Text) (number : Nat) :
    Evaluating Value := do
  match context.target? name number with
  | none => throw .unresolved
  | some node => do
      let state ← get
      if (find? node.label.number state.bindings).isNone then
        let _ ← jumps.value node
      useAnchor context node

/-! ### Entries -/

def putEntry (key value : Value) : List (Value × Value) → List (Value × Value)
  | [] => [(key, value)]
  | (held, old) :: entries =>
      if held.same key then (held, value) :: entries
      else (held, old) :: putEntry key value entries

def hasKey (key : Value) (entries : List (Value × Value)) : Bool :=
  entries.any (·.1.same key)

/-- Merging keeps what is there. -/
def mergeIntoRecord (objects : Objects) (entries : Record Value) (source : List (Value × Value)) :
    Record Value :=
  source.foldl (fun entries (key, value) =>
    match key.name? objects with
    | some name =>
        if (Record.find? name entries).isSome then entries else Record.put name value entries
    | none => entries) entries

def mergeIntoMap (entries source : List (Value × Value)) : List (Value × Value) :=
  source.foldl (fun entries (key, value) =>
    if hasKey key entries then entries else entries ++ [(key, value)]) entries

def addItem (item : Value) (items : List Value) : List Value :=
  if items.any (·.same item) then items else items ++ [item]

/-! ### Nodes -/

section Nodes

variable (context : Context) (jumps : Jumps)

mutual

def ofNode : Node → Evaluating Value
  | .reference name number => useAlias context jumps name number
  | .scalar label value _ => do
      let found ← match value with
        | .bytes _ | .date _ => leaf label.number value
        | _ => pure (.scalar value)
      bind label found
      pure found
  | .map label kind pairs => do
      let place ← allocate (.record [])
      bind label (.object place)
      let content ← match kind with
        | .set => do
            let items ← keysOfPairs [] pairs
            pure (.set items)
        | _ => do
            let entries ← recordOfPairs [] pairs
            pure (.record (Record.inKeyOrder entries))
      fill place content
      pure (.object place)
  | .sequence label kind items => do
      let place ← allocate (.list [])
      bind label (.object place)
      let content ← match kind with
        | .list => do
            let values ← ofItems items
            pure (.list values)
        | .orderedMap => do
            let entries ← entriesOfItems [] items
            pure (.orderedMap entries)
      fill place content
      pure (.object place)

def ofOptional : Option Node → Evaluating Value
  | some node => ofNode node
  | none => pure (.scalar .null)

def ofItems : List Node → Evaluating (List Value)
  | [] => pure []
  | item :: rest => do
      let value ← ofNode item
      let values ← ofItems rest
      pure (value :: values)

def recordOfPairs (entries : Record Value) :
    List (Node × Option Node) → Evaluating (Record Value)
  | [] => pure entries
  | (key, value) :: rest =>
      if key.isMerge context.schema then do
        let sources ← sourcesOf value
        let state ← get
        recordOfPairs (sources.foldl (mergeIntoRecord state.objects) entries) rest
      else do
        let keyValue ← ofNode key
        let found ← ofOptional value
        recordOfPairs (Record.put (keyValue.keyText context.schema key) found entries) rest

def mapOfPairs (entries : List (Value × Value)) :
    List (Node × Option Node) → Evaluating (List (Value × Value))
  | [] => pure entries
  | (key, value) :: rest =>
      if key.isMerge context.schema then do
        let sources ← sourcesOf value
        mapOfPairs (sources.foldl mergeIntoMap entries) rest
      else do
        let keyValue ← ofNode key
        let found ← ofOptional value
        mapOfPairs (putEntry keyValue found entries) rest

/-- The items of a set, which are keys without values; so none of them can merge. -/
def keysOfPairs (items : List Value) : List (Node × Option Node) → Evaluating (List Value)
  | [] => pure items
  | (key, _) :: rest =>
      if key.isMerge context.schema then throw .mergeSource
      else do
        let value ← ofNode key
        keysOfPairs (addItem value items) rest

def entriesOfItems (entries : List (Value × Value)) :
    List Node → Evaluating (List (Value × Value))
  | [] => pure entries
  | .map _ _ [(key, value)] :: rest => do
      let keyValue ← ofNode key
      let found ← ofOptional value
      if hasKey keyValue entries then throw .repeatedKey
      else entriesOfItems (entries ++ [(keyValue, found)]) rest
  | _ :: rest => entriesOfItems entries rest

def sourcesOf : Option Node → Evaluating (List (List (Value × Value)))
  | some (.reference name number) =>
      match context.target? name number with
      | some (.sequence _ _ items) => items.mapM jumps.entries
      | some node => do
          let entries ← jumps.entries node
          pure [entries]
      | none => throw .mergeSource
  | some (.sequence _ _ items) => sourcesOfItems items
  | some (.map _ .record pairs) => do
      let entries ← mapOfPairs [] pairs
      pure [entries]
  | _ => throw .mergeSource

def sourcesOfItems : List Node → Evaluating (List (List (Value × Value)))
  | [] => pure []
  | item :: rest => do
      let entries ← sourceOf item
      let others ← sourcesOfItems rest
      pure (entries :: others)

def sourceOf : Node → Evaluating (List (Value × Value))
  | .map _ .record pairs => mapOfPairs [] pairs
  | .reference name number =>
      match context.target? name number with
      | some node@(.map ..) => jumps.entries node
      | _ => throw .mergeSource
  | _ => throw .mergeSource

end

end Nodes

def jumps (context : Context) : Nat → Jumps
  | 0 => { value := fun _ => throw .endless, entries := fun _ => throw .endless }
  | fuel + 1 =>
      { value := ofNode context (jumps context fuel)
        entries := sourceOf context (jumps context fuel) }

/-- The value of a document. Between two anchors that get their values, a way meets
no other anchor twice, unless it has no end. -/
def evaluate (schema : Schema) (root : Node) : Except Fault (Objects × Value) := do
  let context : Context := { schema, anchored := root.anchored }
  let count := context.anchored.length + 1
  let (value, state) ← (ofNode context (jumps context (count * count)) root).run {}
  pure (state.objects, value)

end Evaluation

end LessonBook.Yaml
