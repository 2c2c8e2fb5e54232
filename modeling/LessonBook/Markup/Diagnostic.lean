import LessonBook.Text.Basic

/-!
Problems that are noticed while a page is read, and the errors that stop the
work on a page.
-/

namespace LessonBook

inductive Severity where
  | info
  | warning
  | error
  | severe
  deriving DecidableEq, Repr

namespace Severity

def rank : Severity → Nat
  | info => 0
  | warning => 1
  | error => 2
  | severe => 3

def name : Severity → String
  | info => "info"
  | warning => "warning"
  | error => "error"
  | severe => "severe"

def all : List Severity := [info, warning, error, severe]

def ofName? (wanted : String) : Option Severity :=
  all.find? fun severity => severity.name == wanted

end Severity

inductive Problem where
  | unclosedDirective (name : Text)
  | unknownDirective (name : Text)
  | untypedAdmonition
  deriving DecidableEq, Repr

namespace Problem

def severity : Problem → Severity
  | unclosedDirective _ => .warning
  | unknownDirective _ => .error
  | untypedAdmonition => .warning

def message : Problem → String
  | unclosedDirective name => "directive \x7b" ++ String.ofList name ++ "\x7d is not closed"
  | unknownDirective name => "unknown directive type \"" ++ String.ofList name ++ "\""
  | untypedAdmonition => "HTML admonition has no type class"

end Problem

/-- A problem and the line, counted from one, on which its block begins. -/
structure Diagnostic where
  problem : Problem
  line : Nat
  deriving DecidableEq, Repr

namespace Diagnostic

def severity (diagnostic : Diagnostic) : Severity := diagnostic.problem.severity

def isFatal (halt : Severity) (diagnostic : Diagnostic) : Bool :=
  halt.rank ≤ diagnostic.severity.rank

end Diagnostic

inductive StructureError where
  | fatal (diagnostic : Diagnostic)
  | unfinishedAdmonition (line : Nat)
  | unexpectedHeader (header : Text) (line : Nat)
  deriving DecidableEq, Repr

namespace StructureError

def line : StructureError → Nat
  | fatal diagnostic => diagnostic.line
  | unfinishedAdmonition line => line
  | unexpectedHeader _ line => line

def reason : StructureError → String
  | fatal diagnostic => diagnostic.problem.message
  | unfinishedAdmonition _ => "could not find end of admonition"
  | unexpectedHeader header _ => "unexpected admonition header \"" ++ String.ofList header ++ "\""

def message (error : StructureError) : String :=
  error.reason ++ " (line " ++ toString error.line ++ ")"

end StructureError

end LessonBook
