import LessonBook.Text.Basic

/-!
Records with text keys. A record keeps the order in which its keys were first
set; a later value for a key replaces the earlier one in its place.
-/

namespace LessonBook

abbrev Record (Value : Type) := List (Text × Value)

namespace Record

variable {Value : Type}

def find? (key : Text) : Record Value → Option Value
  | [] => none
  | (name, value) :: entries => if name = key then some value else find? key entries

def keys (record : Record Value) : List Text :=
  record.map Prod.fst

def put (key : Text) (value : Value) : Record Value → Record Value
  | [] => [(key, value)]
  | (name, old) :: entries =>
      if name = key then (name, value) :: entries else (name, old) :: put key value entries

/-- The one name under which a record of plain values stores nothing. -/
def reservedKey : Text := "__proto__".toList

def assign (key : Text) (value : Value) (record : Record Value) : Record Value :=
  if key = reservedKey then record else put key value record

def erase (key : Text) (record : Record Value) : Record Value :=
  record.filter fun entry => entry.1 ≠ key

/-- The number that a key spells when it is an array index: canonical decimal
digits of a number below 2³² − 1. -/
def indexOf? (key : Text) : Option Nat :=
  if Text.isDigits key && (key.length == 1 || key.head? != some '0') &&
      Text.digitsValue key < 4294967295 then
    some (Text.digitsValue key)
  else
    none

def insertByIndex (index : Nat) (entry : Text × Value) :
    List (Nat × (Text × Value)) → List (Nat × (Text × Value))
  | [] => [(index, entry)]
  | (other, held) :: entries =>
      if index < other then (index, entry) :: (other, held) :: entries
      else (other, held) :: insertByIndex index entry entries

/-- Array indices come first and in ascending order, all other keys after them
in the order in which they were set. -/
def inKeyOrder (record : Record Value) : Record Value :=
  let indexed := record.foldl (fun sorted entry =>
    match indexOf? entry.1 with
    | some index => insertByIndex index entry sorted
    | none => sorted) []
  indexed.map Prod.snd ++ record.filter fun entry => (indexOf? entry.1).isNone

theorem find_put_same (key : Text) (value : Value) (record : Record Value) :
    find? key (put key value record) = some value := by
  induction record with
  | nil => simp [put, find?]
  | cons entry entries induction =>
      obtain ⟨name, old⟩ := entry
      unfold put
      split
      · simp [find?, *]
      · simp [find?, *]

theorem find_put_other {key other : Text} (different : other ≠ key) (value : Value)
    (record : Record Value) : find? other (put key value record) = find? other record := by
  induction record with
  | nil => simp [put, find?, Ne.symm different]
  | cons entry entries induction =>
      obtain ⟨name, old⟩ := entry
      unfold put
      split
      · rename_i same
        subst same
        simp [find?, Ne.symm different]
      · simp only [find?]
        split
        · rfl
        · exact induction

theorem find_erase_other {key other : Text} (different : other ≠ key) (record : Record Value) :
    find? other (erase key record) = find? other record := by
  induction record with
  | nil => rfl
  | cons entry entries induction =>
      obtain ⟨held, value⟩ := entry
      by_cases erased : held = key
      · have passed : held ≠ other := fun same => different (same.symm.trans erased)
        rw [find?, if_neg passed, ← induction, erase, erase,
          List.filter_cons_of_neg (by simp [erased])]
      · rw [erase, List.filter_cons_of_pos (by simp [erased]), find?, find?, ← erase, induction]

end Record

end LessonBook
