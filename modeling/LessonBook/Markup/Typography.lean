import LessonBook.Markup.Extension
import LessonBook.Text.Recognizer

/-!
Typographic signs for prose: abbreviations become signs, dots and dashes are
joined, and straight quotes are curled by what stands in front of them.
-/

namespace LessonBook

namespace Typography

open Text Recognizer

/-- Puts a sign for every occurrence of the word, in any letter case, from left to right. -/
def replaceWord (wanted : Text) (sign : Char) (skipped : Nat) : Text → Text
  | [] => []
  | text@(c :: rest) =>
      match skipped with
      | count + 1 => replaceWord wanted sign count rest
      | 0 =>
          if (wordAnyCase wanted text).isSome then
            sign :: replaceWord wanted sign (wanted.length - 1) rest
          else c :: replaceWord wanted sign 0 rest

def signs : List (Text × Char) :=
  [(['(', 'c', ')'], '©'), (['(', 't', 'm', ')'], '™'), (['(', 'r', ')'], '®'),
    (['+', '-'], '±'), (['.', '.', '.'], '…'), (['-', '-', '-'], '—'), (['-', '-'], '–')]

def replaceSigns (text : Text) : Text :=
  signs.foldl (fun current entry => replaceWord entry.1 entry.2 0 current) text

def opensQuote (c : Char) : Bool :=
  isBlank c || c == '(' || c == '[' || c == '\x7b'

def curl (straight opening closing : Char) (opens : Bool) : Text → Text
  | [] => []
  | c :: rest =>
      (if c == straight then (if opens then opening else closing) else c) ::
        curl straight opening closing (opensQuote c) rest

def curlQuotes (text : Text) : Text :=
  curl '\'' '‘' '’' true (curl '"' '“' '”' true text)

def typeset (enabled : List Extension) (text : Text) : Text :=
  let replaced := if enabled.contains .replacements then replaceSigns text else text
  if enabled.contains .smartquotes then curlQuotes replaced else replaced

end Typography

end LessonBook
