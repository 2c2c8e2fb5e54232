import LessonBook.Admonition.Bracketing
import LessonBook.Exercise.Bracketing
import LessonBook.Notebook.Reader
import LessonBook.Notebook.Writer

/-!
A page of a lesson becomes a notebook: exercises are bracketed first, then
admonitions, and what results is read as a notebook with a declared kernel.
-/

namespace LessonBook

open Text

structure Kernel where
  name : Text := "python".toList
  displayName : Text := "Python (Pyodide)".toList
  deriving Repr, DecidableEq

inductive PageError where
  | sequencing (error : SequencingError)
  | structural (error : StructureError)
  | notebook (fault : NotebookFault)
  deriving Repr

namespace Page

/-- The page with its exercises and then its admonitions bracketed by plain lines. -/
def bracketed (reading : Reading) (text : Text) : Except PageError Text :=
  match bracketExercises text with
  | .error error => .error (.sequencing error)
  | .ok plain =>
      match bracketAdmonitions reading plain with
      | .error error => .error (.structural error)
      | .ok result => .ok result

def kernelJson (kernel : Kernel) : Json :=
  .object [("name".toList, .string kernel.name), ("display_name".toList, .string kernel.displayName)]

def withKernel (kernel : Kernel) (notebook : Notebook) : Notebook :=
  { notebook with metadata := Record.put "kernelspec".toList (kernelJson kernel) notebook.metadata }

def toNotebook (reading : Reading) (kernel : Kernel) (text : Text) : Except PageError Notebook :=
  match bracketed reading text with
  | .error error => .error error
  | .ok plain =>
      match Notebook.ofText plain with
      | .error fault => .error (.notebook fault)
      | .ok notebook => .ok (withKernel kernel notebook)

/-- The problems reported while admonitions are bracketed: those of the text with
its exercises bracketed, unless one of them is fatal. -/
def diagnostics (reading : Reading) (text : Text) : List Diagnostic :=
  match bracketExercises text with
  | .error _ => []
  | .ok plain =>
      match Tree.ofText reading plain with
      | .error _ => []
      | .ok tree => tree.diagnostics

end Page

end LessonBook
