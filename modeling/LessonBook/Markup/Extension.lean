import LessonBook.Text.Basic

/-!
The optional parts of the markup. A page is read with a list of extensions;
an extension that is listed twice counts once.
-/

namespace LessonBook

inductive Extension where
  | amsmath
  | colonFence
  | deflist
  | dollarmath
  | fieldlist
  | htmlAdmonition
  | htmlImage
  | linkify
  | replacements
  | smartquotes
  | strikethrough
  | substitution
  | tasklist
  deriving DecidableEq, Repr

namespace Extension

def all : List Extension :=
  [amsmath, colonFence, deflist, dollarmath, fieldlist, htmlAdmonition, htmlImage, linkify,
    replacements, smartquotes, strikethrough, substitution, tasklist]

/-- Tables and the other additions to the basic markup are read as soon as one
of these three extensions is enabled. -/
def enablesTables (enabled : List Extension) : Bool :=
  enabled.contains linkify || enabled.contains strikethrough || enabled.contains tasklist

end Extension

end LessonBook
