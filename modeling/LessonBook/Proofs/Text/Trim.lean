import Mathlib.Data.List.TakeWhile
import LessonBook.Text.Recognizer

/-!
What trimming keeps: a part of the text that holds all characters of other classes.
-/

namespace LessonBook.Text

theorem drop_end_while_begins (inClass : Char → Bool) (text : Text) :
    dropEndWhile inClass text <+: text := by
  induction text with
  | nil => exact List.prefix_refl _
  | cons c text induction =>
      rw [dropEndWhile]
      split
      · split
        · exact List.nil_prefix
        · exact List.cons_prefix_cons.mpr ⟨rfl, List.nil_prefix⟩
      · exact List.cons_prefix_cons.mpr ⟨rfl, induction⟩

theorem drop_end_while_split (inClass : Char → Bool) (text : Text) :
    ∃ back, dropEndWhile inClass text ++ back = text ∧ ∀ c ∈ back, inClass c = true := by
  induction text with
  | nil => exact ⟨[], rfl, by simp⟩
  | cons c text induction =>
      obtain ⟨back, whole, dropped⟩ := induction
      rw [dropEndWhile]
      split
      · rename_i nothing
        rw [nothing, List.nil_append] at whole
        split
        · rename_i inside
          refine ⟨c :: back, by rw [whole]; rfl, ?_⟩
          intro d member
          rcases List.mem_cons.mp member with rfl | member
          · exact inside
          · exact dropped d member
        · exact ⟨back, by rw [whole]; rfl, dropped⟩
      · exact ⟨back, by rw [List.cons_append, whole], dropped⟩

theorem trim_subset (text : Text) : trim text ⊆ text := by
  intro c member
  exact (List.dropWhile_suffix isBlank).subset ((drop_end_while_begins isBlank _).subset member)

theorem mem_drop_end_while {inClass : Char → Bool} {c : Char} {text : Text}
    (kept : inClass c = false) (member : c ∈ text) : c ∈ dropEndWhile inClass text := by
  induction text with
  | nil => cases member
  | cons d text induction =>
      rw [dropEndWhile]
      rcases List.mem_cons.mp member with rfl | member
      · split
        · rw [kept, if_neg (by simp)]
          exact List.mem_singleton_self c
        · exact List.mem_cons_self
      · split
        · rename_i nothing
          have left := induction member
          rw [nothing] at left
          cases left
        · exact List.mem_cons_of_mem d (induction member)

theorem mem_drop_while {inClass : Char → Bool} {c : Char} {text : Text}
    (kept : inClass c = false) (member : c ∈ text) : c ∈ text.dropWhile inClass := by
  rw [← List.takeWhile_append_dropWhile (p := inClass) (l := text)] at member
  rcases List.mem_append.mp member with taken | left
  · rw [List.mem_takeWhile_imp taken] at kept
    cases kept
  · exact left

theorem mem_trim {c : Char} {text : Text} (kept : isBlank c = false) (member : c ∈ text) :
    c ∈ trim text :=
  mem_drop_end_while kept (mem_drop_while kept member)

theorem drop_end_while_last {inClass : Char → Bool} {text : Text} {c : Char}
    (last : (dropEndWhile inClass text).getLast? = some c) : inClass c = false := by
  induction text with
  | nil => cases last
  | cons d text induction =>
      rw [dropEndWhile] at last
      split at last
      · split at last
        · cases last
        · rename_i kept
          cases last
          exact Bool.eq_false_iff.mpr kept
      · rename_i kept present
        apply induction
        cases shown : dropEndWhile inClass text with
        | nil => exact absurd shown present
        | cons e others =>
            rw [shown, List.getLast?_cons_cons] at last
            exact last

theorem trim_end_newline {text : Text} (newline : text.getLast? = some '\n') :
    ∃ blanks, trimEnd text ++ blanks ++ ['\n'] = text ∧ ∀ c ∈ blanks, isBlank c = true := by
  obtain ⟨back, whole, dropped⟩ := drop_end_while_split isBlank text
  change trimEnd text ++ back = text at whole
  rcases List.eq_nil_or_concat back with rfl | ⟨blanks, last, rfl⟩
  · rw [List.append_nil] at whole
    rw [← whole] at newline
    exact absurd (drop_end_while_last newline) (by decide)
  · rw [List.concat_eq_append] at whole dropped
    refine ⟨blanks, ?_, fun c member => dropped c (List.mem_append_left _ member)⟩
    rw [← whole, ← List.append_assoc, List.getLast?_append, List.getLast?_singleton,
      Option.some_or, Option.some.injEq] at newline
    rw [newline, ← List.append_assoc] at whole
    exact whole

theorem drop_end_while_of_all {inClass : Char → Bool} {text : Text}
    (all : ∀ c ∈ text, inClass c = true) : dropEndWhile inClass text = [] := by
  induction text with
  | nil => rfl
  | cons c text induction =>
      rw [dropEndWhile, induction fun d member => all d (by simp [member])]
      exact if_pos (all c (by simp))

theorem trim_of_blank {text : Text} (blank : ∀ c ∈ text, isBlank c = true) : trim text = [] := by
  have nothing : trimStart text = [] := List.dropWhile_eq_nil_iff.mpr blank
  rw [trim, nothing]
  rfl

theorem blank_of_space_or_tab {c : Char} (blank : isSpaceOrTab c = true) : isBlank c = true := by
  simp only [isSpaceOrTab, Bool.or_eq_true, beq_iff_eq] at blank
  rcases blank with rfl | rfl <;> decide

theorem trim_skip_spaces_and_tabs (text : Text) :
    trim (Recognizer.skipSpacesAndTabs text) = trim text := by
  have blank (text : Text) : trimStart (text.dropWhile isSpaceOrTab) = trimStart text := by
    induction text with
    | nil => rfl
    | cons c text induction =>
        by_cases skipped : isSpaceOrTab c = true
        · rw [List.dropWhile_cons, if_pos skipped, induction, trimStart, trimStart,
            List.dropWhile_cons, if_pos (blank_of_space_or_tab skipped)]
        · rw [List.dropWhile_cons, if_neg skipped]
  rw [trim, Recognizer.skipSpacesAndTabs, blank, trim]

theorem trim_append_blank {blanks : Text} (blank : ∀ c ∈ blanks, isBlank c = true) (text : Text) :
    trim (text ++ blanks) = trim text := by
  have atEnd (text : Text) : dropEndWhile isBlank (text ++ blanks) = dropEndWhile isBlank text := by
    induction text with
    | nil => exact drop_end_while_of_all blank
    | cons c text induction => rw [List.cons_append, dropEndWhile, induction, dropEndWhile]
  rw [trim, trim, trimStart, trimStart, List.dropWhile_append]
  split
  · rename_i nothing
    rw [List.isEmpty_iff] at nothing
    rw [nothing, List.dropWhile_eq_nil_iff.mpr blank]
  · rw [trimEnd, trimEnd, atEnd]

end LessonBook.Text
