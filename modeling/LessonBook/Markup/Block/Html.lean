import LessonBook.Text.Recognizer

/-!
Blocks of HTML. Each of the seven forms has its own opening and its own end:
the four forms with a closing word end with it, the others with a blank line.
-/

namespace LessonBook

namespace Html

open Text Recognizer

def blockElements : List Text :=
  ["address".toList, "article".toList, "aside".toList, "base".toList, "basefont".toList,
    "blockquote".toList, "body".toList, "caption".toList, "center".toList, "col".toList,
    "colgroup".toList, "dd".toList, "details".toList, "dialog".toList, "dir".toList,
    "div".toList, "dl".toList, "dt".toList, "fieldset".toList, "figcaption".toList,
    "figure".toList, "footer".toList, "form".toList, "frame".toList, "frameset".toList,
    "h1".toList, "h2".toList, "h3".toList, "h4".toList, "h5".toList, "h6".toList,
    "head".toList, "header".toList, "hr".toList, "html".toList, "iframe".toList,
    "legend".toList, "li".toList, "link".toList, "main".toList, "menu".toList,
    "menuitem".toList, "meta".toList, "nav".toList, "noframes".toList, "ol".toList,
    "optgroup".toList, "option".toList, "p".toList, "param".toList, "search".toList,
    "section".toList, "summary".toList, "table".toList, "tbody".toList, "td".toList,
    "tfoot".toList, "th".toList, "thead".toList, "title".toList, "tr".toList,
    "track".toList, "ul".toList]

def rawElements : List Text :=
  ["script".toList, "pre".toList, "style".toList, "textarea".toList]

/-- A newline, lines of spaces only, and the newline that ends the last of them. -/
def blankLines? : Text → Option Text
  | [] => none
  | c :: rest =>
      if c != '\n' then none
      else
        let gap := rest.takeWhile fun d => d == ' ' || d == '\n'
        let blank := dropEndWhile (· == ' ') gap
        if blank.contains '\n' then some (rest.drop blank.length) else none

def throughBlankLines (text : Text) : Text :=
  throughFirst blankLines? text

def afterBlockName? : Text → Option Text
  | ' ' :: rest => some (skipSpaces rest)
  | '\n' :: rest => some rest
  | '>' :: rest => some rest
  | '/' :: '>' :: rest => some rest
  | _ => none

def skipSlash : Text → Text
  | '/' :: rest => rest
  | text => text

/-- The opening or closing tag of a block element, its name written in the
letter case that `fold` maps to lower case. -/
def blockTag? (fold : Text → Text) (text : Text) : Option Text := do
  let named := skipSlash (← char '<' text)
  if !blockElements.contains (fold (named.takeWhile Char.isAlphanum)) then none
  afterBlockName? (named.dropWhile Char.isAlphanum)

/-- The rest of the line and the newlines after it; there has to be one. -/
def restOfLine? (text : Text) : Option Text :=
  match afterFirstLine text with
  | [] => none
  | rest => some (skipNewlines rest)

def rawElement? (text : Text) : Option Text := do
  let named ← char '<' text
  let name := named.takeWhile Char.isAlpha
  if !rawElements.contains (lower name) then none
  let inside ← one (fun c => isBlank c || c == '>') (named.dropWhile Char.isAlpha)
  some (throughFirst
    (fun here => (wordAnyCase (['<', '/'] ++ name ++ ['>']) here).bind restOfLine?) inside)

def comment? (text : Text) : Option Text := do
  let inside ← word ['<', '!', '-', '-'] text
  let after := match inside with
    | '>' :: rest => rest
    | '-' :: '>' :: rest => rest
    | _ => throughFirst (word ['-', '-', '>']) inside
  lineEnds (afterFirstLine after)

def instruction? (text : Text) : Option Text := do
  let inside ← word ['<', '?'] text
  some (throughFirst (fun here => (word ['?', '>'] here).map skipNewlines) inside)

def declaration? (text : Text) : Option Text := do
  let inside ← one Char.isAlpha (← word ['<', '!'] text)
  some (throughFirst (fun here => (char '>' here).map skipNewlines) inside)

def characterData? (text : Text) : Option Text := do
  let inside ← wordAnyCase "<![cdata[".toList text
  some (throughFirst (fun here => (word [']', ']', '>'] here).map skipNewlines) inside)

def blockElement? (text : Text) : Option Text := do
  let inside ← blockTag? lower text
  some (throughBlankLines inside)

/-- The name of an element of no fixed set; it may not begin with the name of a raw element. -/
def otherName? (text : Text) : Option Text := do
  let rest ← one Char.isAlpha text
  if rawElements.any fun name => (wordAnyCase name text).isSome then none
  some (rest.dropWhile fun c => isWordChar c || c == '-')

def isUnquotedChar (c : Char) : Bool :=
  !isBlank c && c != '"' && c != '\'' && c != '=' && c != '<' && c != '>' && c != '`'

def attributeValue? (text : Text) : Option Text :=
  match text with
  | [] => none
  | quote :: rest =>
      if quote == '"' || quote == '\'' then
        char quote (rest.dropWhile fun c => c != quote && c != '\n')
      else some1 isUnquotedChar text

def attributes? : Nat → Text → Option Text
  | 0, _ => none
  | count + 1, text =>
      match skipSpaces text with
      | '>' :: rest => some rest
      | '/' :: '>' :: rest => some rest
      | named => do
          if named.length == text.length then none
          let started ← one (fun c => c.isAlpha || c == ':' || c == '_') named
          let afterName := started.dropWhile fun c => isWordChar c || c == '.' || c == ':' || c == '-'
          match skipSpaces afterName with
          | '=' :: assigned => do
              let rest ← attributeValue? (skipSpaces assigned)
              attributes? count rest
          | _ => attributes? count afterName

def restIsBlank (text : Text) : Bool :=
  atLineEnd (skipSpacesAndTabs text)

/-- A complete tag of any other element, alone on its line. -/
def otherElement? (text : Text) : Option Text := do
  let opened ← char '<' text
  let rest ← match opened with
    | '/' :: closing => do
        let afterName ← otherName? closing
        char '>' (skipBlanks afterName)
    | _ => do
        let afterName ← otherName? opened
        attributes? (afterName.length + 1) afterName
  if restIsBlank rest then some (throughBlankLines rest) else none

def read? (text : Text) : Option Text :=
  let opened := indent text
  (rawElement? opened).or <| (comment? opened).or <| (instruction? opened).or <|
    (declaration? opened).or <| (characterData? opened).or <|
    (blockElement? opened).or (otherElement? opened)

/-- An opening that ends the paragraph above it. Here letter case counts, and
the opening has to stand at the very start of the line. -/
def interruptsParagraph (text : Text) : Bool :=
  (blockTag? id text).isSome ||
    match text with
    | '<' :: rest => startsWith ['!', '-', '-'] rest || rawElements.any (startsWith · rest)
    | _ => false

end Html

end LessonBook
