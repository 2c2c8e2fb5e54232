import LessonBook.Text.Recognizer

/-!
Admonitions written as HTML: a division whose class list names `admonition`,
with the type as another class and the title in a paragraph of class `title`.
-/

namespace LessonBook

structure HtmlAdmonition where
  type : Option Text
  title : Option Text
  deriving DecidableEq, Repr

namespace HtmlAdmonition

open Text Recognizer

def isQuote (c : Char) : Bool :=
  c == '"' || c == '\''

def notQuote (c : Char) : Bool :=
  !isQuote c

def classValue? (text : Text) : Option (Text × Text) := do
  let named ← wordAnyCase ['c', 'l', 'a', 's', 's'] text
  let assigned ← char '=' (skipBlanks named)
  let inside ← one isQuote (skipBlanks assigned)
  some (inside.takeWhile notQuote, ← one isQuote (inside.dropWhile notQuote))

/-- The class attributes that begin inside a tag, the last one first. -/
def classValues (afterWord : Bool) : Text → List (Text × Text)
  | [] => []
  | text@(c :: rest) =>
      if c == '>' then []
      else
        classValues (isWordChar c) rest ++
          (if afterWord then none else classValue? text).toList

def tag? (name text : Text) : Option Text := do
  let rest ← wordAnyCase ('<' :: name) text
  if rest.head?.any isWordChar then none else some rest

def classes? (raw : Text) : Option (List Text) := do
  let inside ← tag? ['d', 'i', 'v'] (indent raw)
  let (value, _) ← (classValues false inside).head?
  some ((splitAt isBlank value).filter fun name => !name.isEmpty)

def hasTitleWord (afterWord : Bool) : Text → Bool
  | [] => false
  | text@(c :: rest) =>
      (!afterWord && match wordAnyCase ['t', 'i', 't', 'l', 'e'] text with
        | some left => !(left.head?.any isWordChar)
        | none => false) || hasTitleWord (isWordChar c) rest

def titleHere? (text : Text) : Option Text := do
  let inside ← tag? ['p'] text
  (classValues false inside).findSome? fun (value, rest) =>
    if hasTitleWord false value then
      match rest.dropWhile (· != '>') with
      | _ :: content =>
          (firstMatch (wordAnyCase ['<', '/', 'p', '>']) content).map Prod.fst
      | [] => none
    else none

def title? : Text → Option Text
  | [] => none
  | text@(_ :: rest) => (titleHere? text).or (title? rest)

def admonitionClass : Text := "admonition".toList

/-- Reads type and title of an admonition from a block of HTML. -/
def ofHtml? (raw : Text) : Option HtmlAdmonition := do
  let classes ← classes? raw
  if !classes.contains admonitionClass then none
  some ⟨classes.find? (· != admonitionClass),
    ((title? raw).map trim).filter fun title => !title.isEmpty⟩

end HtmlAdmonition

end LessonBook
