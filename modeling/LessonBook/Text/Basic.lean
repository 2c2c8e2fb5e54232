/-!
Texts as lists of characters: which characters are blank, which end a line,
how a text is trimmed, cut into lines and joined again.
-/

namespace LessonBook

abbrev Text := List Char

namespace Text

/-- Blank characters: the control blanks from tab to carriage return, every
Unicode space separator, both Unicode line terminators and the byte order mark. -/
def isBlank (c : Char) : Bool :=
  (9 ≤ c.toNat && c.toNat ≤ 13) || c.toNat == 32 || c.toNat == 160 ||
    c.toNat == 0x1680 || (0x2000 ≤ c.toNat && c.toNat ≤ 0x200A) ||
    c.toNat == 0x2028 || c.toNat == 0x2029 || c.toNat == 0x202F ||
    c.toNat == 0x205F || c.toNat == 0x3000 || c.toNat == 0xFEFF

def isTerminator (c : Char) : Bool :=
  c == '\n' || c == '\r' || c.toNat == 0x2028 || c.toNat == 0x2029

def isWordChar (c : Char) : Bool :=
  c.isAlphanum || c == '_'

def isSpaceOrTab (c : Char) : Bool :=
  c == ' ' || c == '\t'

def notNewline (c : Char) : Bool :=
  c != '\n'

def trimStart (text : Text) : Text :=
  text.dropWhile isBlank

def dropEndWhile (inClass : Char → Bool) : Text → Text
  | [] => []
  | c :: rest =>
      match dropEndWhile inClass rest with
      | [] => if inClass c then [] else [c]
      | kept => c :: kept

def trimEnd (text : Text) : Text :=
  dropEndWhile isBlank text

def trim (text : Text) : Text :=
  trimEnd (trimStart text)

/-- ASCII letters in lower case; every other character is kept. -/
def lower (text : Text) : Text :=
  text.map Char.toLower

/-- Cuts at every character that satisfies the test; the cut characters are dropped. -/
def splitAt (isCut : Char → Bool) : Text → List Text
  | [] => [[]]
  | c :: rest =>
      if isCut c then [] :: splitAt isCut rest
      else match splitAt isCut rest with
        | [] => [[c]]
        | first :: others => (c :: first) :: others

/-- The lines of a text whose only line end is `\n`. There is always at least one. -/
def lines (text : Text) : List Text :=
  splitAt (· == '\n') text

def intercalate (separator : Text) : List Text → Text
  | [] => []
  | [piece] => piece
  | piece :: pieces => piece ++ separator ++ intercalate separator pieces

def joinLines (pieces : List Text) : Text :=
  intercalate ['\n'] pieces

/-- A carriage return, alone or with the newline after it, becomes one newline. -/
def normalizeLineEnds : Text → Text
  | [] => []
  | '\r' :: '\n' :: rest => '\n' :: normalizeLineEnds rest
  | '\r' :: rest => '\n' :: normalizeLineEnds rest
  | c :: rest => c :: normalizeLineEnds rest

def newlineCount (text : Text) : Nat :=
  text.count '\n'

def firstLine (text : Text) : Text :=
  text.takeWhile notNewline

/-- The text from its first newline on. -/
def afterFirstLine (text : Text) : Text :=
  text.dropWhile notNewline

def indentWidth? : Text → Option Nat
  | [] => none
  | c :: rest => if c == ' ' then (indentWidth? rest).map (· + 1) else some 0

/-- What stands in front of `rest`, which is meant to be an end part of `text`. -/
def before (text rest : Text) : Text :=
  text.take (text.length - rest.length)

def startsWith (word text : Text) : Bool :=
  word.isPrefixOf text

def endsWith (word text : Text) : Bool :=
  word.isSuffixOf text

/-- At every line start drops as many characters as `cut` says. `skipped`
characters are still to be dropped, and `atStart` tells whether a line starts here. -/
def cutLineStarts (cut : Text → Nat) (skipped : Nat) (atStart : Bool) : Text → Text
  | [] => []
  | text@(c :: rest) =>
      match skipped with
      | count + 1 => cutLineStarts cut count false rest
      | 0 =>
          match if atStart then cut text else 0 with
          | count + 1 => cutLineStarts cut count false rest
          | 0 => c :: cutLineStarts cut 0 (isTerminator c) rest

def isDigits (text : Text) : Bool :=
  !text.isEmpty && text.all Char.isDigit

def digitsValue (digits : Text) : Nat :=
  digits.foldl (fun value digit => 10 * value + (digit.toNat - '0'.toNat)) 0

def ofNat (value : Nat) : Text :=
  Nat.toDigits 10 value

/-- The end part that begins with the first occurrence of the word. -/
def find? (word : Text) : Text → Option Text
  | [] => if word.isEmpty then some [] else none
  | text@(_ :: rest) => if startsWith word text then some text else find? word rest

theorem lines_ne_nil (text : Text) : lines text ≠ [] := by
  unfold lines
  cases text with
  | nil => simp [splitAt]
  | cons c rest =>
      unfold splitAt
      split
      · simp
      · split <;> simp

theorem join_lines_of_lines (text : Text) : joinLines (lines text) = text := by
  induction text with
  | nil => rfl
  | cons c rest induction =>
      have present := lines_ne_nil rest
      unfold joinLines lines at *
      unfold splitAt
      split
      · rename_i isNewline
        have : c = '\n' := by simpa using isNewline
        subst this
        cases pieces : splitAt (· == '\n') rest with
        | nil => exact absurd pieces present
        | cons first others =>
            rw [pieces] at induction
            simp [intercalate, induction]
      · cases pieces : splitAt (· == '\n') rest with
        | nil => exact absurd pieces present
        | cons first others =>
            rw [pieces] at induction
            cases others with
            | nil => simpa [intercalate] using induction
            | cons second more => simpa [intercalate] using induction

theorem before_append (front rest : Text) : before (front ++ rest) rest = front := by
  simp [before]

end Text

end LessonBook
