import LessonBook.Text.Recognizer

/-!
Links and images with a target in parentheses, and bracketed references.
-/

namespace LessonBook

namespace Link

open Text Recognizer

def bracketPiece? : Text → Option Text
  | '\\' :: c :: rest => if isTerminator c then none else some rest
  | c :: rest => if c == '[' || c == ']' || c == '\\' then none else some rest
  | [] => none

def labelPiece? : Text → Option Text
  | '\\' :: c :: rest => if isTerminator c then none else some rest
  | '`' :: rest => char '`' (rest.dropWhile (· != '`'))
  | '[' :: rest => char ']' (many bracketPiece? rest)
  | c :: rest => if c == ']' || c == '\\' then none else some rest
  | [] => none

def label? (text : Text) : Option (Text × Text) := do
  let inside ← char '[' text
  let rest := many labelPiece? inside
  some (before inside rest, ← char ']' rest)

def name? (text : Text) : Option Text := do
  let inside ← char '[' text
  if startsWith [']'] (skipBlanks inside) then none
  char ']' (many bracketPiece? inside)

def withoutBang : Text → Text
  | '!' :: rest => rest
  | text => text

def isReference (text : Text) : Bool :=
  ((label? (withoutBang text)).bind fun (_, rest) => name? rest).isSome ||
    (name? (withoutBang text)).isSome

/-- All ends that a title can have, the farthest first: a closing mark behind a
backslash belongs to the title, unless the link cannot be read that way. -/
def titleEnds (close : Char) : Text → List Text
  | [] => []
  | '\\' :: c :: rest =>
      if c == close then titleEnds close rest ++ [rest] else titleEnds close (c :: rest)
  | c :: rest => if c == close then [rest] else titleEnds close rest

def titleClose? (quote : Char) : Option Char :=
  if quote == '"' || quote == '\'' then some quote else if quote == '(' then some ')' else none

def afterTarget? (text : Text) : Option Text :=
  let closed (rest : Text) : Option Text := char ')' (skipBlanks rest)
  let titled : Option Text := do
    let _ ← one isBlank text
    match skipBlanks text with
    | [] => none
    | quote :: inside => (titleEnds (← titleClose? quote) inside).findSome? closed
  titled.or (closed text)

def isTargetChar (c : Char) : Bool :=
  !isBlank c && 0x1F < c.toNat

def anglePiece? : Text → Option Text
  | '\\' :: c :: rest => if isTerminator c then none else some rest
  | c :: rest => if c == '\n' || c == '<' || c == '>' || c == '\\' then none else some rest
  | [] => none

def angleTarget? (text : Text) : Option (Text × Text) := do
  let inside ← char '<' text
  let rest ← char '>' (many anglePiece? (← anglePiece? inside))
  some (before text rest, ← afterTarget? rest)

/-- A target without blanks; it may give back what stands behind its last
parenthesis. -/
def plainTarget? (text : Text) : Option (Text × Text) :=
  let target := text.takeWhile isTargetChar
  let rest := text.dropWhile isTargetChar
  match afterTarget? rest with
  | some left => some (target, left)
  | none =>
      match dropEndWhile (· != ')') target with
      | [] => none
      | closed => some (closed.dropLast, text.drop closed.length)

def target? (text : Text) : Option (Text × Text) :=
  let inside := skipBlanks text
  (angleTarget? inside).or <| (plainTarget? inside).or <|
    (afterTarget? text).map fun rest => ([], rest)

def unmatchedClose? (level index : Nat) : Text → Option Nat
  | [] => none
  | '\\' :: _ :: rest => unmatchedClose? level (index + 2) rest
  | c :: rest =>
      if c == '(' then unmatchedClose? (level + 1) (index + 1) rest
      else if c == ')' then
        if level = 0 then some index else unmatchedClose? (level - 1) (index + 1) rest
      else unmatchedClose? level (index + 1) rest

/-- The length of the link as it is read: a parenthesis that closes none inside
the target ends it. A target in angle brackets has to end with an unescaped one. -/
def readLength? (isImage : Bool) (label target raw : Text) : Option Nat :=
  if startsWith ['<'] target then
    let inner := target.dropLast
    let escapes := inner.length - (dropEndWhile (· == '\\') inner).length
    if endsWith ['>'] target && escapes % 2 = 0 then some raw.length else none
  else
    match unmatchedClose? 0 0 target with
    | some index =>
        some (trimEnd (raw.take ((if isImage then 5 else 4) + label.length + index))).length
    | none => some raw.length

def unescapeBrackets : Text → Text
  | [] => []
  | '\\' :: '[' :: rest => '[' :: unescapeBrackets rest
  | '\\' :: ']' :: rest => ']' :: unescapeBrackets rest
  | c :: rest => c :: unescapeBrackets rest

/-- Reads a link or an image. Answers with the label, if it is to be read as
markup, and with what follows. -/
def read? (text : Text) : Option (Option Text × Text) := do
  let isImage := startsWith ['!'] text
  let (label, rest) ← label? (withoutBang text)
  let inside ← char '(' rest
  let (target, left) ← target? inside
  let length ← readLength? isImage label target (before text left)
  some (if isImage then none else some (unescapeBrackets label), text.drop length)

end Link

end LessonBook
