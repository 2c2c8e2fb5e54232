import LessonBook.Markup.Extension
import LessonBook.Markup.Inline.Element
import LessonBook.Markup.Inline.Emphasis
import LessonBook.Markup.Inline.Link

/-!
Finds the names that prose refers to as `{{ name }}`. A reference counts where
it stands in plain text, in emphasis or in the label of a link, and not inside
code, tags, link targets or addresses.
-/

namespace LessonBook

namespace Substitution

open Text Recognizer

def isNameChar (c : Char) : Bool :=
  isWordChar c || c == '.' || c == '-'

def reference? (text : Text) : Option (Text × Text) := do
  let inside := skipBlanks (← word ['\x7b', '\x7b'] text)
  let name := inside.takeWhile isNameChar
  if name.isEmpty then none
  some (name, ← word ['\x7d', '\x7d'] (skipBlanks (inside.dropWhile isNameChar)))

structure Prose where
  references : Bool
  addresses : Bool
  deriving DecidableEq, Repr

def escape? (text : Text) : Option Text :=
  match text with
  | '\\' :: c :: rest => if Unicode.isAsciiPunctuation c then some rest else none
  | _ => none

def closesCode? (count : Nat) (text : Text) : Option Text :=
  if (text.takeWhile (· == '`')).length = count then some (text.drop count) else none

def afterCode? (count : Nat) (inRun : Bool) : Text → Option Text
  | [] => none
  | text@(c :: rest) =>
      if c == '`' then
        match if inRun then none else closesCode? count text with
        | some left => some left
        | none => afterCode? count true rest
      else afterCode? count false rest

def code? (text : Text) : Option Text := do
  let count := (text.takeWhile (· == '`')).length
  if count = 0 then none
  afterCode? count false (text.drop count)

/-- A line break by two spaces or a backslash, unless only blanks follow. -/
def lineBreak? (text : Text) : Option Text := do
  let ended ← match text with
    | ' ' :: ' ' :: rest => some (skipSpaces rest)
    | '\\' :: rest => some rest
    | _ => none
  let rest ← char '\n' ended
  if rest.all isBlank then none else some rest

def isTildeOrBlank (c : Char) : Bool :=
  isBlank c || c == '~'

/-- The struck text up to `count` tildes that follow neither a blank nor a
tilde and that no tilde follows. -/
def struckBody? (count : Nat) (mayClose : Bool) : Text → Option (Text × Text)
  | [] => none
  | text@(c :: rest) =>
      match if mayClose then closing count text else none with
      | some left => some ([], left)
      | none => (struckBody? count (!isTildeOrBlank c) rest).map fun (body, left) =>
          (c :: body, left)
where
  closing (count : Nat) (text : Text) : Option Text :=
    if (text.takeWhile (· == '~')).length = count then some (text.drop count) else none

def struck? (text : Text) : Option (Text × Text) := do
  let count := (text.takeWhile (· == '~')).length
  if count = 0 || 2 < count then none
  let inside := text.drop count
  if (inside.head?.map isTildeOrBlank).getD true then none
  struckBody? count false inside

def spacesThenNewline (text : Text) : Bool :=
  match text with
  | ' ' :: ' ' :: rest => startsWith ['\n'] (skipSpaces rest)
  | _ => false

def stopsPlain (addresses : Bool) (text : Text) : Bool :=
  match text with
  | [] => true
  | c :: _ =>
      c == '\\' || c == '<' || c == '!' || c == '[' || c == '`' || c == '*' || c == '_' ||
        (addresses && (c == '~' || (word "https://".toList text).isSome ||
          (word "http://".toList text).isSome || (word "ftp://".toList text).isSome ||
          (word "www.".toList text).isSome))

def plainTail (addresses : Bool) : Text → Text
  | [] => []
  | text@(c :: rest) =>
      if stopsPlain addresses text then text
      else if (c != ' ' && spacesThenNewline rest) ||
          (addresses && !Address.isLocalChar c && Address.startsMail rest) then rest
      else plainTail addresses rest

/-- A piece of plain text: a run of code marks or one character, and then
everything up to the next place where something else may begin. -/
def plain? (addresses : Bool) (text : Text) : Option Text :=
  let isMark (c : Char) : Bool := c == '`' || (addresses && c == '~')
  match text with
  | [] => none
  | c :: rest =>
      let after := if isMark c then text.dropWhile isMark else rest
      if spacesThenNewline after || (addresses && Address.startsMail after) then some after
      else some (plainTail addresses after)

def beforeNextBraces (text : Text) : Text :=
  match text with
  | [] => []
  | c :: rest =>
      match find? ['\x7b', '\x7b'] rest with
      | some left => c :: before rest left
      | none => text

def lastPlain (previous : Option Char) (piece : Text) : Option Char :=
  if endsWith ['_'] piece then previous else piece.getLast?

inductive Found where
  | name (name : Text)
  | inner (text : Text) (isLink : Bool)
  | tag (tag : Text)
  | mark
  | plain (piece : Text)
  deriving Repr

def step? (options : Prose) (insideLink : Bool) (masked : Text) (previous : Option Char)
    (text : Text) : Option (Found × Text) :=
  let mark (rest : Option Text) : Option (Found × Text) := rest.map fun left => (.mark, left)
  let when (enabled : Bool) (found : Option (Found × Text)) := if enabled then found else none
  (when options.references ((reference? text).map fun (name, rest) => (.name name, rest))).or <|
  (mark (escape? text)).or <|
  ((Tag.read? text).map fun rest => (.tag (before text rest), rest)).or <|
  ((Link.read? text).map fun (label, rest) =>
    (match label with | some inner => .inner inner true | none => .mark, rest)).or <|
  (when (Link.isReference text) (some (.mark, text.drop 1))).or <|
  ((Emphasis.read? masked previous text).map fun (inner, rest) => (.inner inner false, rest)).or <|
  (mark (code? text)).or <|
  (mark (lineBreak? text)).or <|
  (when options.addresses ((struck? text).map fun (inner, rest) => (.inner inner false, rest))).or <|
  (mark (Address.bracketed? text)).or <|
  (when (options.addresses && !insideLink) (mark (Address.plain? text))).or <|
  let visible := if options.references then beforeNextBraces text else text
  (plain? options.addresses visible).map fun rest =>
    let piece := before visible rest
    (.plain piece, text.drop piece.length)

/-- Reads prose from left to right. Answers with the names in it and with
whether a link written as a tag is open at its end. -/
def scan (options : Prose) (masked : Text) : Nat → Bool → Option Char → Text → List Text × Bool
  | 0, insideLink, _, _ => ([], insideLink)
  | fuel + 1, insideLink, previous, text =>
      if text.isEmpty then ([], insideLink)
      else match step? options insideLink masked previous text with
        | none => ([], insideLink)
        | some (.name name, rest) =>
            let (names, link) := scan options masked fuel insideLink none rest
            (name :: names, link)
        | some (.inner inner isLink, rest) =>
            let (names, after) := scan options (Emphasis.mask inner) fuel
              (insideLink || isLink) none inner
            let (others, link) := scan options masked fuel (!isLink && after) none rest
            (names ++ others, link)
        | some (.tag tag, rest) =>
            scan options masked fuel (Tag.insideLink tag insideLink) none rest
        | some (.mark, rest) => scan options masked fuel insideLink none rest
        | some (.plain piece, rest) =>
            scan options masked fuel insideLink (lastPlain previous piece) rest

def names (options : Prose) (insideLink : Bool) (text : Text) : List Text × Bool :=
  scan options (Emphasis.mask text) (text.length + 1) insideLink none text

def proseFor (enabled : List Extension) : Prose :=
  ⟨enabled.contains .substitution, Extension.enablesTables enabled⟩

end Substitution

end LessonBook
