import Mathlib.Data.List.Induction
import Mathlib.Data.List.Nodup
import LessonBook.Proofs.Exercise.PageReading

/-!
The attributes of a marker. They stand on the run of attribute lines directly
below its line, and of two values for one key the last counts.
-/

namespace LessonBook

open Text Recognizer

namespace Record

variable {Value : Type}

theorem find_assign (key : Text) (value : Value) (record : Record Value) (other : Text) :
    find? other (assign key value record) =
      if other ≠ reservedKey ∧ other = key then some value else find? other record := by
  by_cases reserved : key = reservedKey
  · rw [assign, if_pos reserved, if_neg]
    rintro ⟨free, same⟩
    exact free (same.trans reserved)
  · rw [assign, if_neg reserved]
    by_cases same : other = key
    · rw [same, find_put_same, if_pos ⟨reserved, rfl⟩]
    · rw [find_put_other same, if_neg fun both => same both.2]

theorem keys_put (key : Text) (value : Value) (record : Record Value) :
    keys (put key value record) = if key ∈ keys record then keys record else keys record ++ [key] := by
  induction record with
  | nil => rfl
  | cons entry entries induction =>
      obtain ⟨name, old⟩ := entry
      by_cases same : name = key
      · simp [put, keys, same]
      · simp only [keys] at induction
        simp only [put, if_neg same, keys, List.map_cons, induction, List.mem_cons, Ne.symm same,
          false_or]
        by_cases member : key ∈ entries.map Prod.fst <;> simp [member]

theorem distinct_assign {record : Record Value} (distinct : (keys record).Nodup) (key : Text)
    (value : Value) : (keys (assign key value record)).Nodup := by
  unfold assign
  split
  · exact distinct
  · rw [keys_put]
    split
    · exact distinct
    · rename_i fresh
      exact List.nodup_append_comm.mpr (List.nodup_cons.mpr ⟨fresh, distinct⟩)

/-- The value of the last entry for a key. Under the reserved key nothing is stored. -/
def lastValue? (key : Text) (entries : List (Text × Value)) : Option Value :=
  if key = reservedKey then none else entries.reverse.lookup key

/-- A record made of entries holds the last value for each key, and each key once. -/
theorem find_of_entries (entries : List (Text × Value)) :
    let record := entries.foldl (fun record entry => assign entry.1 entry.2 record) []
    (keys record).Nodup ∧ ∀ key, find? key record = lastValue? key entries := by
  induction entries using List.reverseRecOn with
  | nil => exact ⟨List.nodup_nil, fun key => (ite_self none).symm⟩
  | append_singleton entries entry induction =>
      obtain ⟨distinct, values⟩ := induction
      simp only [List.foldl_append, List.foldl_cons, List.foldl_nil]
      refine ⟨distinct_assign distinct entry.1 entry.2, fun key => ?_⟩
      rw [find_assign, values, lastValue?, lastValue?, List.reverse_append, List.reverse_singleton,
        List.singleton_append, List.lookup_cons]
      by_cases reserved : key = reservedKey
      · simp [reserved]
      · by_cases same : key = entry.1
        · simp [reserved, ← same]
        · simp [reserved, same, beq_eq_false_iff_ne.mpr same]

end Record

namespace Marker

def attributeLines (below : List Text) : List Text :=
  below.takeWhile fun line => (attributeKey? line).isSome

def attributesOn (lines : List Text) : Record Text :=
  (lines.filterMap attribute?).foldl (fun record entry => Record.assign entry.1 entry.2 record) []

theorem attributes_of_eq (block : Text) : attributesOf block = attributesOn (lines block) := rfl

theorem attributes_on_append_empty (pieces : List Text) :
    attributesOn (pieces ++ [[]]) = attributesOn pieces := by
  have empty : attribute? [] = none := rfl
  simp [attributesOn, List.filterMap_append, empty]

variable {below : List Text} (single : ∀ line ∈ below, '\n' ∉ line)
include single

theorem many_attribute_lines : many attributeLine? (joinLines below) =
    joinLines (below.drop (attributeLines below).length) := by
  induction below with
  | nil => rfl
  | cons line below induction =>
      have lineSingle := single line (by simp)
      cases named : (attributeKey? line).isSome with
      | true =>
          have taken : many attributeLine? (joinLines (line :: below)) =
              many attributeLine? (joinLines below) := by
            rw [many_eq shorter_of_attribute_line, join_lines_cons,
              attribute_line_before_end (lines_below_end below) lineSingle, if_pos named,
              lines_below_drop]
          rw [taken, induction fun other member => single other (by simp [member])]
          simp [attributeLines, named]
      | false =>
          rw [many_attribute_line lineSingle below named]
          simp [attributeLines, named]

theorem attributes_below :
    attributesOf (before (joinLines below) (many attributeLine? (joinLines below))) =
      attributesOn (attributeLines below) := by
  have taken : attributeLines below ++ below.drop (attributeLines below).length = below :=
    List.prefix_iff_eq_append.mp (List.takeWhile_prefix _)
  have inside : ∀ line ∈ attributeLines below, '\n' ∉ line :=
    fun line member => single line ((List.takeWhile_prefix _).subset member)
  rw [many_attribute_lines single, attributes_of_eq]
  generalize below.drop (attributeLines below).length = others at taken
  cases front : attributeLines below with
  | nil =>
      rw [front, List.nil_append] at taken
      rw [taken, before, Nat.sub_self]
      rfl
  | cons line more =>
      rw [front] at taken inside
      have cut := lines_join_lines (List.cons_ne_nil line more) inside
      cases others with
      | nil =>
          have whole : before (joinLines below) (joinLines []) = joinLines (line :: more) := by
            rw [← taken, List.append_nil]
            exact List.take_length
          rw [whole, cut]
      | cons other others =>
          have whole : before (joinLines below) (joinLines (other :: others)) =
              joinLines (line :: more) ++ ['\n'] := by
            rw [← taken, List.cons_append, join_lines_cons, lines_below_append,
              lines_below_of_cons other, ← List.append_assoc, ← join_lines_cons, List.append_cons,
              before_append]
          rw [whole, lines_append_newline, cut, lines_nil, attributes_on_append_empty]

end Marker

end LessonBook
