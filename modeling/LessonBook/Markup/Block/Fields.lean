import LessonBook.Record
import LessonBook.Text.Recognizer

/-!
Definition lists, field lists, front matter and image elements.
-/

namespace LessonBook

open Text Recognizer

namespace DefinitionList

def definition? (text : Text) : Option Text := do
  let inside ← char ':' (indent text)
  let blanks ← some1 isSpaceOrTab inside
  let written ← one (fun c => !isBlank c) blanks
  lineEnd (afterFirstLine written)

def continuation? (text : Text) : Option Text := do
  let written ← match text with
    | ' ' :: ' ' :: rest => some (skipSpaces rest)
    | '\t' :: rest => some rest
    | _ => none
  let rest ← one (fun c => !isBlank c) written
  lineEnd (afterFirstLine rest)

def entry? (text : Text) : Option Text :=
  (definition? text).map (many continuation?)

def definitionOf? (line : Text) : Option Text :=
  match indent line with
  | ':' :: rest =>
      match rest with
      | [] => none
      | c :: _ => if isSpaceOrTab c then some (trim (skipSpacesAndTabs rest)) else none
  | _ => none

/-- A term may not look like a heading, a quote, a field or a fence. -/
def startsTerm (text : Text) : Bool :=
  match text with
  | [] => false
  | c :: rest =>
      !isBlank c && c != '#' && c != '>' && c != ':' &&
        !((c == '`' || c == '~') &&
          (rest.take 2).length == 2 && (rest.take 2).all fun d => d == '`' || d == '~')

def read? (text : Text) : Option ((Text × List Text) × Text) := do
  let written := indent text
  if !startsTerm written then none
  let definitions ← char '\n' (afterFirstLine written)
  let rest := many entry? (← entry? definitions)
  some ((trim (firstLine written), (lines (before definitions rest)).filterMap definitionOf?), rest)

end DefinitionList

namespace FieldList

def isKeyChar (c : Char) : Bool :=
  isWordChar c || c == '.' || c == '-'

def key? (text : Text) : Option (Text × Text) := do
  let named ← char ':' (indent text)
  let key := named.takeWhile isKeyChar
  if key.isEmpty then none
  let rest ← char ':' (named.dropWhile isKeyChar)
  some (key, rest)

def line? (text : Text) : Option Text := do
  let (_, rest) ← key? text
  match rest with
  | [] => some []
  | c :: _ => if isSpaceOrTab c || c == '\n' then lineEnd (afterFirstLine rest) else none

def fieldOf? (line : Text) : Option (Text × Text) := do
  let (key, value) ← key? line
  some (key, trim (skipSpacesAndTabs value))

def read? (text : Text) : Option (Record Text × Text) := do
  let rest := many line? (← line? text)
  let fields := (lines (before text rest)).filterMap fieldOf?
  some (fields.foldl (fun record field => Record.assign field.1 field.2 record) [], rest)

end FieldList

namespace FrontMatter

def closing? (text : Text) : Option Text := do
  let lineStart ← char '\n' text
  let closed ← orElse (word ['-', '-', '-']) (word ['.', '.', '.']) lineStart
  let rest := skipSpacesAndTabs closed
  if atLineEnd rest then some rest else none

/-- Reads the text between two delimiter lines; it is at least one, perhaps empty, line. -/
def read? (text : Text) : Option (Text × Text) := do
  let dashes ← word ['-', '-', '-'] text
  let inside ← char '\n' (skipSpacesAndTabs dashes)
  firstMatch closing? inside

end FrontMatter

namespace ImageElement

def isAttributeChar (c : Char) : Bool :=
  isWordChar c || c == '-'

def quoted? : Text → Option (Text × Text)
  | [] => none
  | quote :: rest =>
      if quote == '"' || quote == '\'' then
        match rest.dropWhile (· != quote) with
        | [] => none
        | _ :: after => some (rest.takeWhile (· != quote), after)
      else none

def attribute? (text : Text) : Option ((Text × Text) × Text) := do
  let name := text.takeWhile isAttributeChar
  if name.isEmpty then none
  let assigned ← char '=' (skipBlanks (text.dropWhile isAttributeChar))
  let (value, rest) ← quoted? (skipBlanks assigned)
  some ((lower name, value), rest)

/-- All attributes from left to right. An attribute begins at a boundary
between word characters and others; `skipped` characters belong to the last one. -/
def attributes (skipped : Nat) (afterWord : Bool) : Text → List (Text × Text)
  | [] => []
  | text@(c :: rest) =>
      match skipped with
      | count + 1 => attributes count (isWordChar c) rest
      | 0 =>
          match if afterWord != isWordChar c then attribute? text else none with
          | some (found, left) =>
              found :: attributes (text.length - left.length - 1) (isWordChar c) rest
          | none => attributes 0 (isWordChar c) rest

/-- Reads an `img` element that stands alone on its line; answers with its
source and its alternative text. -/
def read? (text : Text) : Option ((Text × Text) × Text) := do
  let inside ← wordAnyCase ['<', 'i', 'm', 'g'] (indent text)
  if (inside.head?.map isWordChar).getD false then none
  let rest := skipSpacesAndTabs (← char '>' (inside.dropWhile (· != '>')))
  if !atLineEnd rest then none
  let found := (attributes 0 false (inside.takeWhile (· != '>'))).foldl
    (fun record entry => Record.put entry.1 entry.2 record) []
  some (((Record.find? ['s', 'r', 'c'] found).getD [], (Record.find? ['a', 'l', 't'] found).getD []),
    rest)

end ImageElement

end LessonBook
