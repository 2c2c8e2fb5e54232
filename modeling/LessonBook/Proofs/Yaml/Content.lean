import LessonBook.Yaml.Library

/-!
What a value says, in whatever order its keys stand and wherever its parts lead: the
shape of what is found on each way into it. A value that contains itself has ways of
any length.
-/

namespace LessonBook

namespace Yaml

/-- One step into a value. The entries of an ordered map have a key and a value each. -/
inductive Turn where
  | key (name : Text)
  | item (place : Nat)
  | itemKey (place : Nat)

inductive Shape where
  | scalar (value : Scalar)
  | list (length : Nat)
  | record
  | orderedMap (length : Nat)
  | set (length : Nat)
  deriving DecidableEq

namespace Content

variable {Part : Type}

def shape : Content Part → Shape
  | scalar value => .scalar value
  | list items => .list items.length
  | record _ => .record
  | orderedMap entries => .orderedMap entries.length
  | set items => .set items.length

def part? : Content Part → Turn → Option Part
  | list items, .item place | set items, .item place => items[place]?
  | record entries, .key name => Record.find? name entries
  | orderedMap entries, .item place => (entries[place]?).map Prod.snd
  | orderedMap entries, .itemKey place => (entries[place]?).map Prod.fst
  | _, _ => none

end Content

namespace Library

variable (yaml : Library)

def shapeAt? : List Turn → yaml.Value → Option Shape
  | [], value => some (yaml.content value).shape
  | turn :: way, value => ((yaml.content value).part? turn).bind (shapeAt? way)

def SaysSame (value other : yaml.Value) : Prop :=
  ∀ way, yaml.shapeAt? way value = yaml.shapeAt? way other

/-- The records have the same keys, and for each of them values that say the same. -/
def SameEntries (entries others : Record yaml.Value) : Prop :=
  ∀ key way, (Record.find? key entries).bind (yaml.shapeAt? way) =
    (Record.find? key others).bind (yaml.shapeAt? way)

variable {yaml} {value other : yaml.Value} {entries others : Record yaml.Value}

theorem says_same_of_entries (record : yaml.content value = .record entries)
    (otherRecord : yaml.content other = .record others)
    (same : yaml.SameEntries entries others) : yaml.SaysSame value other := by
  intro way
  match way with
  | [] => rw [shapeAt?, shapeAt?, record, otherRecord]; rfl
  | .key key :: way =>
      rw [shapeAt?, shapeAt?, record, otherRecord]
      exact same key way
  | .item _ :: _ => rw [shapeAt?, shapeAt?, record, otherRecord]; rfl
  | .itemKey _ :: _ => rw [shapeAt?, shapeAt?, record, otherRecord]; rfl

theorem SameEntries.symm (same : yaml.SameEntries entries others) :
    yaml.SameEntries others entries :=
  fun key way => (same key way).symm

theorem eq_nil_of_same_entries (same : yaml.SameEntries [] entries) : entries = [] := by
  cases entries with
  | nil => rfl
  | cons entry entries =>
      have found := same entry.1 []
      rw [Record.find?, Record.find?, if_pos rfl] at found
      cases found

end Library

end Yaml

end LessonBook
