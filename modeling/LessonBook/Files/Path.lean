import LessonBook.Text.Basic

/-!
Absolute paths as the names on the way from the root. Relative paths are
resolved against a directory, step by step and without looking at any file.
-/

namespace LessonBook

open Text

/-- The names from the root on. An empty last name stands for a slash at the end. -/
abbrev FilePath := List Text

namespace FilePath

def step (path : FilePath) (name : Text) : FilePath :=
  if name.isEmpty || name = ['.'] then path
  else if name = ['.', '.'] then path.dropLast
  else path ++ [name]

def walk (start : FilePath) (names : List Text) : FilePath :=
  names.foldl step start

def isAbsolute (text : Text) : Bool :=
  text.head? = some '/'

def resolve (directory : FilePath) (text : Text) : FilePath :=
  walk (if isAbsolute text then [] else directory) (splitAt (· == '/') text)

/-- The path that a text names below a directory, whether or not it begins with a
slash. A slash at its end is kept. -/
def join (directory : FilePath) (text : Text) : FilePath :=
  let path := walk directory (splitAt (· == '/') text)
  if text.getLast? = some '/' && !path.isEmpty then path ++ [[]] else path

def toText (path : FilePath) : Text :=
  '/' :: intercalate ['/'] path

def trimmed (path : FilePath) : FilePath :=
  if path.getLast? = some [] then path.dropLast else path

def name (path : FilePath) : Text :=
  path.trimmed.getLast?.getD []

def parent (path : FilePath) : FilePath :=
  path.trimmed.dropLast

/-- All paths on the way to a path, the root first and the path itself last. -/
def ancestors (path : FilePath) : List FilePath :=
  (List.range (path.length + 1)).map path.take

end FilePath

end LessonBook
