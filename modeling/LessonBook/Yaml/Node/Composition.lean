import LessonBook.Yaml.Node.Basic
import LessonBook.Yaml.Node.Properties
import LessonBook.Yaml.Tag

/-!
Composes the nodes of a document from its outline, and numbers them. There are no
nodes when any rule is broken.
-/

namespace LessonBook.Yaml

open Text

abbrev Composing := StateT Nat Option

namespace Composing

def fail {Value : Type} : Composing Value := fun _ => none

def require (condition : Bool) : Composing Unit :=
  if condition then pure () else fail

def lift {Value : Type} (value : Option Value) : Composing Value := fun count =>
  value.map fun found => (found, count)

def nextNumber : Composing Nat := fun count =>
  some (count, count + 1)

/-- The label of a node, and its tag in the full form. The empty tag is none. -/
def labelFor (directives : Directives) (properties : Properties) :
    Composing (Label × Option Text) := do
  let handles := directives.handles
  let tag ← match properties.tag with
    | some mark => do
        let tag ← lift (Tag.resolve? handles mark.text)
        pure (if tag.isEmpty then none else some tag)
    | none => pure none
  let anchor ← match properties.anchor with
    | some mark => do
        let name := mark.text.drop 1
        require !name.isEmpty
        pure (some name)
    | none => pure none
  let number ← nextNumber
  pure ({ number, anchor, tag := tag.map (Tag.shorten handles) }, tag)

end Composing

namespace Node

open Composing

def tagged? (directives : Directives) (tag : Option Text) (text : Text) : Option Scalar :=
  match tag with
  | some tag => (directives.schema.tagged? tag text).map Prod.fst
  | none => some (.string text)

def ofPlain (directives : Directives) (isKey : Bool) (properties : Properties) (text : Text) :
    Composing Node := do
  let (label, tag) ← labelFor directives properties
  let (value, spelling) ← match tag with
    | some tag => lift (directives.schema.tagged? tag text)
    | none => pure (directives.schema.plain isKey text)
  pure (scalar label value (.plain spelling))

def ofLeaf (directives : Directives) (isKey : Bool) (properties : Properties) (mark : Mark)
    (tail : List Mark) : Composing Node := do
  require (tailFits true false tail)
  match mark.kind with
  | .reference =>
      let name := mark.text.drop 1
      require (!name.isEmpty && !properties.hasProperty)
      let number ← nextNumber
      pure (reference name number)
  | .singleQuoted => do
      let text ← lift (ScalarText.singleQuoted? mark.text)
      let (label, tag) ← labelFor directives properties
      let value ← lift (tagged? directives tag text)
      pure (scalar label value .singleQuoted)
  | .doubleQuoted => do
      let text ← lift (ScalarText.doubleQuoted? mark.text)
      let (label, tag) ← labelFor directives properties
      let value ← lift (tagged? directives tag text)
      pure (scalar label value .doubleQuoted)
  | _ => do
      let text ← lift (ScalarText.plain? mark.text)
      ofPlain directives isKey properties text

def isFolded (header : List Mark) : Bool :=
  match header with
  | mark :: _ => mark.text.head? = some '>'
  | [] => false

def ofBlockScalar (directives : Directives) (properties : Properties) (header : List Mark)
    (body : Text) (indent : Nat) (atRoot : Bool) : Composing Node := do
  let text ← lift (ScalarText.block? header body indent atRoot)
  let (label, tag) ← labelFor directives properties
  let value ← lift (tagged? directives tag text)
  pure (scalar label value (if isFolded header then .folded else .literal))

/-! ### Tags of collections -/

/-- Whether a value is null and carries no tag, as all values in a set have to. -/
def isBare : Option Node → Bool
  | none => true
  | some (scalar label .null _) => label.tag.isNone
  | _ => false

def mapWith (label : Label) (tag : Option Text) (pairs : List (Node × Option Node)) :
    Option Node :=
  if tag = some (coreTag "set").toList then
    if pairs.all fun pair => isBare pair.2 then some (map label .set pairs) else none
  else some (map label .record pairs)

/-- An item of a sequence of pairs: the entry of a map, without its label. -/
def pairOf? : Node → Option Node
  | map _ _ [] => some (map {} .pair [(empty, none)])
  | map _ _ [pair] => some (map {} .pair [pair])
  | map .. => none
  | item => some (map {} .pair [(item, none)])

def keyOf? : Node → Option Scalar
  | map _ _ [(key, _)] => key.scalar?
  | _ => none

def distinct : List Scalar → Bool
  | [] => true
  | key :: keys => !keys.any key.sameOrNan && distinct keys

def sequenceWith (label : Label) (tag : Option Text) (items : List Node) : Option Node :=
  if tag = some (coreTag "omap").toList then do
    let pairs ← items.mapM pairOf?
    if distinct (pairs.filterMap keyOf?) then some (sequence label .orderedMap pairs) else none
  else if tag = some (coreTag "pairs").toList then do
    let pairs ← items.mapM pairOf?
    some (sequence label .list pairs)
  else some (sequence label .list items)

/-! ### Rules for collections -/

mutual

def spansLines : Outline → Bool
  | .leaf mark tail => mark.text.contains '\n' || Mark.anyOf .newline tail
  | .flow _ _ entries _ => entriesSpanLines entries
  | _ => true

def optionSpansLines : Option Outline → Bool
  | some part => spansLines part
  | none => false

def entriesSpanLines : List (Entry Outline) → Bool
  | [] => false
  | ⟨start, _, key, gap, value⟩ :: rest =>
      Mark.anyOf .newline start || gap.any (Mark.anyOf .newline) ||
        optionSpansLines key || optionSpansLines value || entriesSpanLines rest

end

def offsetOf : Outline → Nat
  | .leaf mark _ => mark.offset
  | .blockScalar (mark :: _) _ _ => mark.offset
  | .blockScalar [] _ _ => 0
  | .blockMap offset _ _ => offset
  | .blockSequence offset _ _ => offset
  | .flow opening _ _ _ => opening.offset

/-- A colon stands at most this far behind the start of an implicit key. -/
def keyLimit : Nat := 1024

def keyStart (properties : Properties) (start : List Mark) (key : Option Outline) (colon : Mark) :
    Nat :=
  properties.startOf start ((key.map offsetOf).getD colon.offset)

def newlineInFront (colon : Mark) : List Mark → Bool
  | [] => false
  | mark :: rest => mark ≠ colon && (mark.kind = .newline || newlineInFront colon rest)

/-- An implicit key of a block map begins at the column of the map, and ends on its line. -/
def implicitKeyFits (indent : Nat) (properties : Properties) (key : Option Outline) : Bool :=
  match key with
  | some part =>
      !part.isBlockSequence && part.indent = indent && properties.newlineBehind.isNone &&
        !spansLines part
  | none => properties.newlineBehind.isNone

/-- The marks between an implicit key and its value: the colon is near, and no
map begins on the same line. -/
def implicitGapFits (properties : Properties) (start : List Mark) (key value : Option Outline)
    (between : Properties) (colon : Mark) : Bool :=
  let nested := match value with
    | some (.blockMap ..) => !between.hasNewline
    | _ => false
  !nested && colon.offset ≤ keyStart properties start key colon + keyLimit

/-- The properties of a block sequence stand on a line of their own. -/
def onOwnLine (properties : Properties) : Bool :=
  let last := match properties.anchor, properties.tag with
    | some anchor, some tag => some (max anchor.offset tag.offset)
    | some anchor, none => some anchor.offset
    | none, some tag => some tag.offset
    | none, none => none
  match last, properties.newlineBehind with
  | none, _ => true
  | some _, none => false
  | some offset, some newline => offset ≤ newline.offset

def isBlockScalar : Option Outline → Bool
  | some (.blockScalar ..) => true
  | _ => false

/-- What a collection closes with: its own bracket, and behind that only what may
follow a node. -/
def closingFits (isMap : Bool) : List Mark → Bool
  | [] => false
  | mark :: rest =>
      mark.kind = (if isMap then .mapClose else .sequenceClose) && tailFits true false rest

/-- Between an item and the one in front of it stands exactly one comma, and in
front of the first item none. -/
def commaFits (first : Bool) (properties : Properties) : Bool :=
  properties.comma.isNone = first

def flowPairFits (properties : Properties) (start gap : List Mark) (key : Option Outline)
    (colon : Mark) : Bool :=
  !newlineInFront colon gap && colon.offset ≤ keyStart properties start key colon + keyLimit

def isBlockPart : Option Outline → Bool
  | some part => part.isBlockCollection
  | none => false

def isVoid (properties : Properties) (entry : Entry Outline) : Bool :=
  properties.indicator.isNone && !properties.hasProperty && entry.gap.isNone && entry.value.isNone

/-! ### Composition -/

inductive Position where
  | root
  | key
  | inner
  deriving DecidableEq

mutual

def ofOutline (directives : Directives) (position : Position) (properties : Properties) :
    Outline → Composing Node
  | .leaf mark tail => ofLeaf directives (position = .key) properties mark tail
  | .blockScalar header body indent =>
      ofBlockScalar directives properties header body indent (position = .root)
  | .blockMap _ indent entries => do
      let (label, tag) ← labelFor directives properties
      let pairs ← ofMapEntries directives indent false [] entries
      lift (mapWith label tag pairs)
  | .blockSequence _ indent entries => do
      require (onOwnLine properties)
      let (label, tag) ← labelFor directives properties
      let items ← ofSequenceEntries directives indent entries
      lift (sequenceWith label tag items)
  | .flow opening indent entries closing => do
      let (label, tag) ← labelFor directives properties
      let isMap := opening.kind = .mapOpen
      let found ←
        if isMap then do
          let pairs ← ofFlowMapEntries directives indent true [] entries
          lift (mapWith label tag pairs)
        else do
          let items ← ofFlowSequenceEntries directives indent true entries
          lift (sequenceWith label tag items)
      require (closingFits isMap closing)
      pure found

def ofOptional (directives : Directives) (position : Position) (properties : Properties) :
    Option Outline → Composing Node
  | some part => ofOutline directives position properties part
  | none => ofPlain directives (position = .key) properties []

/-- `skipped` tells whether an entry without content came before; no entry may follow it. -/
def ofMapEntries (directives : Directives) (indent : Nat) (skipped : Bool) (keys : List Node) :
    List (Entry Outline) → Composing (List (Node × Option Node))
  | [] => if skipped then fail else pure []
  | ⟨start, _, key, gap, value⟩ :: rest => do
      let marks := gap.getD []
      let properties ← lift (Properties.read?
        { indicator := .keyMark, indent, atLineStart := true, following := .ofEither key marks } start)
      match properties.indicator with
      | some indicator => require (indicator.indent = indent)
      | none => pure ()
      let isImplicit := properties.indicator.isNone
      if isImplicit && key.isNone && gap.isNone && !properties.hasProperty then
        if rest.isEmpty then pure [] else ofMapEntries directives indent true keys rest
      else do
        require (!isImplicit || implicitKeyFits indent properties key)
        let keyNode ← ofOptional directives .key properties key
        require !(keys.any (sameKey keyNode))
        let between ← lift (Properties.read?
          { indicator := .valueMark, indent
            atLineStart := key.isNone || isBlockScalar key
            following := .ofEither value [] } marks)
        let pair ← match between.indicator with
          | some colon => do
              require (!isImplicit || implicitGapFits properties start key value between colon)
              let valueNode ← ofOptional directives .inner between value
              pure (keyNode, some valueNode)
          | none => do
              require !isImplicit
              pure (keyNode, none)
        let pairs ← ofMapEntries directives indent skipped (keyNode :: keys) rest
        pure (pair :: pairs)

def ofSequenceEntries (directives : Directives) (indent : Nat) :
    List (Entry Outline) → Composing (List Node)
  | [] => pure []
  | ⟨start, _, _, _, value⟩ :: rest => do
      let properties ← lift (Properties.read?
        { indicator := .sequenceMark, indent, atLineStart := true, following := .ofEither value [] }
        start)
      if properties.indicator.isNone then do
        require (!properties.hasProperty && value.isNone)
        ofSequenceEntries directives indent rest
      else do
        let item ← ofOptional directives .inner properties value
        let items ← ofSequenceEntries directives indent rest
        pure (item :: items)

def ofFlowMapEntries (directives : Directives) (indent : Nat) (first : Bool) (keys : List Node) :
    List (Entry Outline) → Composing (List (Node × Option Node))
  | [] => pure []
  | ⟨start, isExplicit, key, gap, value⟩ :: rest => do
      let marks := gap.getD []
      let properties ← lift (Properties.read?
        { indicator := .keyMark, inFlow := true, indent, following := .ofEither key marks } start)
      if isVoid properties ⟨start, isExplicit, key, gap, value⟩ then do
        require (if first then properties.comma.isNone && rest.isEmpty else rest.isEmpty)
        pure []
      else do
        require (commaFits first properties)
        let keyNode ← ofOptional directives .key properties key
        require !(isBlockPart key || isBlockPart value)
        let between ← lift (Properties.read?
          { indicator := .valueMark, inFlow := true, indent, following := .ofEither value [] } marks)
        require (between.indicator.isSome || value.isNone)
        let valueNode ← if between.indicator.isSome then do
            let node ← ofOptional directives .inner between value
            pure (some node)
          else pure none
        require !(keys.any (sameKey keyNode))
        let pairs ← ofFlowMapEntries directives indent false (keyNode :: keys) rest
        pure ((keyNode, valueNode) :: pairs)

def ofFlowSequenceEntries (directives : Directives) (indent : Nat) (first : Bool) :
    List (Entry Outline) → Composing (List Node)
  | [] => pure []
  | ⟨start, isExplicit, key, gap, value⟩ :: rest => do
      let marks := gap.getD []
      let properties ← lift (Properties.read?
        { indicator := .keyMark, inFlow := true, indent, following := .ofEither key marks } start)
      if isVoid properties ⟨start, isExplicit, key, gap, value⟩ then do
        require (if first then properties.comma.isNone && rest.isEmpty else rest.isEmpty)
        pure []
      else do
        require (properties.indicator.isSome || !optionSpansLines key)
        require (commaFits first properties)
        require !(isBlockPart key || isBlockPart value)
        let item ←
          if gap.isNone && properties.indicator.isNone then ofOptional directives .inner properties value
          else do
            let keyNode ← ofOptional directives .key properties key
            let between ← lift (Properties.read?
              { indicator := .valueMark, inFlow := true, indent, following := .ofEither value [] }
              marks)
            match between.indicator with
            | some colon => do
                require (properties.indicator.isSome ||
                  flowPairFits properties start marks key colon)
                let valueNode ← ofOptional directives .inner between value
                pure (map {} .record [(keyNode, some valueNode)])
            | none => do
                require value.isNone
                pure (map {} .record [(keyNode, none)])
        let items ← ofFlowSequenceEntries directives indent false rest
        pure (item :: items)

end

end Node

end LessonBook.Yaml
