import LessonBook.Markup.Block.Reader
import LessonBook.Markup.Diagnostic
import LessonBook.Markup.HtmlAdmonition
import LessonBook.Markup.Inline.Substitution
import LessonBook.Markup.Typography

/-!
The tree of a page: its blocks with their lines, admonitions with the blocks
inside them, and the problems found on the way. The line of a block is one more
than the newlines in the raw texts of the blocks before it.
-/

namespace LessonBook

inductive AdmonitionForm where
  | fence
  | html
  deriving DecidableEq, Repr

inductive Node where
  | admonition (type : Text) (title : Option Text) (form : AdmonitionForm) (line : Nat)
      (children : List Node)
  | directive (name args body : Text) (line : Nat)
  | block (kind : String) (text : Option Text) (substitutions : List Text) (line : Nat)
  deriving Repr

namespace Node

def line : Node → Nat
  | admonition _ _ _ line _ => line
  | directive _ _ _ line => line
  | block _ _ _ line => line

def children : Node → List Node
  | admonition _ _ _ _ children => children
  | directive .. | block .. => []

end Node

def knownDirectives : List Text :=
  ["code".toList, "code-block".toList, "code-cell".toList, "csv-table".toList,
    "dropdown".toList, "epigraph".toList, "exercise".toList, "figure".toList,
    "glossary".toList, "image".toList, "include".toList, "list-table".toList,
    "margin".toList, "math".toList, "raw".toList, "sidebar".toList, "solution".toList,
    "table".toList, "tabbed".toList, "toctree".toList]

def chunkLanguages : List Text :=
  ["bash".toList, "js".toList, "julia".toList, "python".toList, "r".toList, "sh".toList,
    "sql".toList]

def firstWord (name : Text) : Text :=
  name.takeWhile fun c => !Text.isBlank c && c != ','

def isPageDirective (name : Text) : Bool :=
  knownDirectives.contains name || chunkLanguages.contains (Text.lower (firstWord name))

namespace Leaf

def admonition? (enabled : List Extension) (raw : Text) : Leaf → Option HtmlAdmonition
  | html _ => if enabled.contains .htmlAdmonition then HtmlAdmonition.ofHtml? raw else none
  | _ => none

def shownText (enabled : List Extension) (leaf : Leaf) : Option Text :=
  if leaf.isProse then leaf.text?.map (Typography.typeset enabled) else leaf.text?

/-- The names in the inline texts of a leaf; the cells of a table are read, but
their names are not reported. -/
def substitutions (enabled : List Extension) (insideLink : Bool) (leaf : Leaf) :
    List Text × Bool :=
  let (names, link) := leaf.inlineTexts.foldl (fun (found, link) text =>
    let (more, after) := Substitution.names (Substitution.proseFor enabled) link text
    (found ++ more, after)) ([], insideLink)
  match leaf with
  | table _ => ([], link)
  | _ => (names, link)

end Leaf

mutual

/-- The names that a block and the blocks inside it refer to, in order; those in
lists are not reported. The flag tells whether a link written as a tag is open. -/
def Block.substitutions (enabled : List Extension) (insideLink : Bool) :
    Block → List Text × Bool
  | .leaf _ content => content.substitutions enabled insideLink
  | .directive _ _ body => Block.substitutionsOfAll enabled insideLink body
  | .quote _ _ body => Block.substitutionsOfAll enabled insideLink body
  | .list _ items => ([], Block.linkAfterItems enabled insideLink items)

def Block.substitutionsOfAll (enabled : List Extension) (insideLink : Bool) :
    List Block → List Text × Bool
  | [] => ([], insideLink)
  | first :: blocks =>
      let (names, link) := Block.substitutions enabled insideLink first
      let (others, after) := Block.substitutionsOfAll enabled link blocks
      (names ++ others, after)

def Block.linkAfterItems (enabled : List Extension) (insideLink : Bool) :
    List (List Block) → Bool
  | [] => insideLink
  | item :: items =>
      Block.linkAfterItems enabled (Block.substitutionsOfAll enabled insideLink item).2 items

end

mutual

def Node.ofBlock (enabled : List Extension) (line : Nat) (insideLink : Bool) :
    Block → Option Node × Bool
  | .leaf raw leaf =>
      let (names, link) := leaf.substitutions enabled insideLink
      match leaf.admonition? enabled raw with
      | some found =>
          (some (.admonition (found.type.getD HtmlAdmonition.admonitionClass) found.title
            .html line []), link)
      | none =>
          if leaf = .space then (none, link)
          else (some (.block leaf.kind (leaf.shownText enabled) names line), link)
  | .directive _ opened body =>
      if isAdmonitionName opened.name then
        let (children, link) := Node.ofBlocks enabled (line + 1) insideLink body
        (some (.admonition opened.name
          (if opened.args.isEmpty then none else some opened.args) .fence line children), link)
      else
        (some (.directive opened.name opened.args opened.body line), insideLink)
  | .quote _ text body =>
      let (names, link) := Block.substitutionsOfAll enabled insideLink body
      (some (.block "blockquote" (some text) names line), link)
  | .list _ items =>
      (some (.block "list" none [] line), Block.linkAfterItems enabled insideLink items)

def Node.ofBlocks (enabled : List Extension) (line : Nat) (insideLink : Bool) :
    List Block → List Node × Bool
  | [] => ([], insideLink)
  | first :: blocks =>
      let (node, link) := Node.ofBlock enabled line insideLink first
      let (nodes, after) :=
        Node.ofBlocks enabled (line + Text.newlineCount first.raw) link blocks
      (node.toList ++ nodes, after)

end

mutual

def Diagnostic.ofBlock (enabled : List Extension) (line : Nat) : Block → List Diagnostic
  | .leaf raw leaf =>
      match leaf.admonition? enabled raw with
      | some ⟨none, _⟩ => [⟨.untypedAdmonition, line⟩]
      | _ => []
  | .directive _ opened body =>
      (if opened.closed then [] else [⟨.unclosedDirective opened.name, line⟩]) ++
        (if isAdmonitionName opened.name then Diagnostic.ofBlocks enabled (line + 1) body
          else if isPageDirective opened.name then []
          else [⟨.unknownDirective opened.name, line⟩])
  | .quote .. | .list .. => []

def Diagnostic.ofBlocks (enabled : List Extension) (line : Nat) : List Block → List Diagnostic
  | [] => []
  | block :: blocks =>
      Diagnostic.ofBlock enabled line block ++
        Diagnostic.ofBlocks enabled (line + Text.newlineCount block.raw) blocks

end

/-- How a page is read: the extensions, and the severity from which a problem is fatal. -/
structure Reading where
  extensions : List Extension := Extension.all
  halt : Severity := .severe
  deriving Repr

structure Tree where
  nodes : List Node
  lineCount : Nat
  diagnostics : List Diagnostic
  deriving Repr

namespace Tree

def ofText (reading : Reading) (page : Text) : Except StructureError Tree :=
  let blocks := Block.ofText reading.extensions page
  let diagnostics := Diagnostic.ofBlocks reading.extensions 1 blocks
  match diagnostics.find? (Diagnostic.isFatal reading.halt) with
  | some diagnostic => .error (.fatal diagnostic)
  | none => .ok {
      nodes := (Node.ofBlocks reading.extensions 1 false blocks).1
      lineCount := (Text.lines (Text.normalizeLineEnds page)).length
      diagnostics }

/-- Reads a page and tells of its problems, one after the other, unless one is fatal. -/
def ofTextTelling {M : Type → Type} [Monad M] (tell : Diagnostic → M Unit) (reading : Reading)
    (page : Text) : M (Except StructureError Tree) :=
  match ofText reading page with
  | .error error => pure (.error error)
  | .ok tree => do
      tree.diagnostics.forM tell
      pure (.ok tree)

end Tree

mutual

def Node.preorder : Node → List Node
  | .admonition type title form line inside =>
      .admonition type title form line inside :: Node.preorderAll inside
  | .directive name args body line => [.directive name args body line]
  | .block kind text names line => [.block kind text names line]

def Node.preorderAll : List Node → List Node
  | [] => []
  | node :: nodes => Node.preorder node ++ Node.preorderAll nodes

end

end LessonBook
