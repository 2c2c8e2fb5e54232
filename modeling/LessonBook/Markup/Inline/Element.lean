import LessonBook.Text.Recognizer

/-!
Tags, addresses in angle brackets, and addresses that stand in prose as they are.
-/

namespace LessonBook

open Text Recognizer

namespace Tag

def afterFirst? (step : Recognizer) (text : Text) : Option Text :=
  (firstMatch step text).map Prod.snd

def comment? (text : Text) : Option Text := do
  let inside ← word ['<', '!', '-', '-'] text
  match inside with
  | '>' :: rest => some rest
  | '-' :: '>' :: rest => some rest
  | _ => afterFirst? (word ['-', '-', '>']) inside

def closing? (text : Text) : Option Text := do
  let named ← one Char.isAlpha (← word ['<', '/'] text)
  char '>' (skipBlanks (named.dropWhile fun c => isWordChar c || c == ':' || c == '-'))

def isUnquotedChar (c : Char) : Bool :=
  !isBlank c && c != '"' && c != '\'' && c != '=' && c != '<' && c != '>' && c != '`'

def value? (text : Text) : Option Text :=
  match text with
  | [] => none
  | quote :: rest =>
      if quote == '"' || quote == '\'' then char quote (rest.dropWhile (· != quote))
      else some1 isUnquotedChar text

def attributes? : Nat → Text → Option Text
  | 0, _ => none
  | count + 1, text =>
      match skipBlanks text with
      | '>' :: rest => some rest
      | '/' :: '>' :: rest => some rest
      | named => do
          if named.length == text.length then none
          let started ← one (fun c => c.isAlpha || c == ':' || c == '_') named
          let afterName := started.dropWhile fun c => isWordChar c || c == '.' || c == ':' || c == '-'
          match skipBlanks afterName with
          | '=' :: assigned => do
              let rest ← value? (skipBlanks assigned)
              attributes? count rest
          | _ => attributes? count afterName

def opening? (text : Text) : Option Text := do
  let named ← one Char.isAlpha (← char '<' text)
  let afterName := named.dropWhile fun c => isWordChar c || c == '-'
  attributes? (afterName.length + 1) afterName

def instruction? (text : Text) : Option Text := do
  let inside ← word ['<', '?'] text
  afterFirst? (word ['?', '>']) inside

def declaration? (text : Text) : Option Text := do
  let named ← some1 Char.isAlpha (← word ['<', '!'] text)
  afterFirst? (char '>') (← one isBlank named)

def characterData? (text : Text) : Option Text := do
  let inside ← word "<![CDATA[".toList text
  afterFirst? (word [']', ']', '>']) inside

def read? (text : Text) : Option Text :=
  (comment? text).or <| (closing? text).or <| (opening? text).or <| (instruction? text).or <|
    (declaration? text).or (characterData? text)

/-- Whether plain addresses are inside a link written as a tag, after this tag. -/
def insideLink (tag : Text) (inside : Bool) : Bool :=
  if (wordAnyCase ['<', 'a', ' '] tag).isSome then true
  else if (wordAnyCase ['<', '/', 'a', '>'] tag).isSome then false
  else inside

end Tag

namespace Address

def isLocalChar (c : Char) : Bool :=
  c.isAlphanum || ".!#$%&'*+/=?_`\x7b|\x7d~-".toList.contains c

def startsMail (text : Text) : Bool :=
  ((some1 isLocalChar text).bind (char '@')).isSome

def isHostChar (c : Char) : Bool :=
  c.isAlphanum || c == '-'

/-- The ends of the parts of a host name that begin here, the farthest first. A
part begins and ends with a letter or digit and has at most 63 characters. -/
def hostPartEnds (text : Text) : List Text :=
  match text with
  | [] => []
  | c :: rest =>
      if !c.isAlphanum then []
      else
        let run := (rest.take 62).takeWhile isHostChar
        let ends := (List.range (run.length + 1)).reverse.filter fun count =>
          count = 0 || (run[count - 1]?.any Char.isAlphanum)
        ends.map fun count => rest.drop count

/-- The host name of a mail address, with at least one dot in it. `finish`
has to accept what follows. -/
def hostTail? (finish : Recognizer) : Nat → Text → Option Text
  | 0, _ => none
  | count + 1, text =>
      match text with
      | '.' :: part => (hostPartEnds part).findSome? fun rest =>
          (hostTail? finish count rest).or (finish rest)
      | _ => none

def endsMail (text : Text) : Option Text :=
  if text.head?.any fun c => c == '-' || c == '_' then none else some text

def bracketedMail? (finish : Recognizer) (text : Text) : Option Text := do
  let host ← char '@' (← some1 isLocalChar text)
  (hostPartEnds host).findSome? (hostTail? (fun rest => (endsMail rest).bind finish) text.length)

def isSchemeChar (c : Char) : Bool :=
  c.isAlphanum || c == '+' || c == '.' || c == '-'

def bracketedLocator? (text : Text) : Option Text := do
  let rest ← one Char.isAlpha text
  let count := (rest.takeWhile isSchemeChar).length
  if count < 1 || 31 < count then none
  let target ← char ':' (rest.drop count)
  char '>' (target.dropWhile fun c => !isBlank c && 0x1F < c.toNat && c != '<' && c != '>')

def bracketed? (text : Text) : Option Text := do
  let inside ← char '<' text
  (bracketedLocator? inside).or (bracketedMail? (char '>') inside)

/-- A piece of an address that does not end it: plain characters, a pair of
parentheses, an ampersand that begins no entity at the end, or punctuation that
does not stand at the end. -/
def backedPiece? (text : Text) : Option Text :=
  match text with
  | [] => none
  | c :: rest =>
      if "?!.,:;*_'\"~)".toList.contains c then
        let after := text.dropWhile fun d => "?!.,:;*_'\"~)".toList.contains d
        if after.isEmpty then
          if rest.isEmpty then none else some (text.drop (text.length - 1))
        else some after
      else if c == '(' then char ')' (rest.dropWhile (· != ')'))
      else if c == '&' then
        match rest.dropWhile Char.isAlphanum with
        | [';'] => if 1 < rest.length then none else some rest
        | _ => some rest
      else some rest

/-- Takes away from the end what belongs to the sentence, until nothing changes. -/
def backUp : Nat → Text → Text
  | 0, address => address
  | count + 1, address =>
      let kept := before address (many backedPiece? address)
      if kept.length = address.length then kept else backUp count kept

def startsLocator (text : Text) : Option Text :=
  (wordAnyCase "http://".toList text).or <| (wordAnyCase "https://".toList text).or <|
    (wordAnyCase "ftp://".toList text).or (wordAnyCase "www.".toList text)

def locator? (text : Text) : Option Text := do
  let host ← startsLocator text
  let _ ← one isHostChar host
  let rest := host.dropWhile fun c => !isBlank c && c != '<'
  let address := before text rest
  some (text.drop (backUp address.length address).length)

def isDottedChar (c : Char) : Bool :=
  isHostChar c || c == '_'

def dottedEnds (text : Text) : List Text :=
  let run := text.takeWhile isDottedChar
  ((List.range (run.length + 1)).reverse.filter fun count =>
    0 < count && (run[count - 1]?.any Char.isAlphanum)).map fun count => text.drop count

def dottedTail? : Nat → Text → Option Text
  | 0, _ => none
  | count + 1, text =>
      match text with
      | '.' :: part => (dottedEnds part).findSome? fun rest =>
          (dottedTail? count rest).or (endsMail rest)
      | _ => none

def mail? (text : Text) : Option Text := do
  let named ← some1 (fun c => isWordChar c || c == '.' || c == '+' || c == '-') text
  let host ← char '@' named
  dottedTail? text.length (← some1 isDottedChar host)

def plain? (text : Text) : Option Text :=
  (locator? text).or (mail? text)

end Address

end LessonBook
