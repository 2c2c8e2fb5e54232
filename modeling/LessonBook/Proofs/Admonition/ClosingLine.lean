import Mathlib.Data.List.TakeWhile
import LessonBook.Admonition.Span
import LessonBook.Proofs.Text.TabExpansion
import LessonBook.Proofs.Text.Trim

/-!
The search for the closing line of an admonition. A line closes whether its tabs
are written as spaces or not, and every line that closes a directive is one that
the search stops at.
-/

namespace LessonBook

open Text Recognizer

namespace Text

theorem drop_end_while_append {inClass : Char → Bool} {front back : Text}
    (kept : ∀ c ∈ front, inClass c = false) (all : ∀ c ∈ back, inClass c = true) :
    dropEndWhile inClass (front ++ back) = front := by
  induction front with
  | nil => exact drop_end_while_of_all all
  | cons c front induction =>
      rw [List.cons_append, dropEndWhile, induction fun d member => kept d (by simp [member])]
      cases front with
      | nil => exact if_neg (by rw [kept c (by simp)]; simp)
      | cons d front => rfl

theorem trim_start_skip_spaces (count : Nat) (text : Text) :
    trimStart (skipUpTo (· == ' ') count text) = trimStart text := by
  induction count generalizing text with
  | zero => rfl
  | succ count induction =>
      cases text with
      | nil => rfl
      | cons c rest =>
          rw [skipUpTo]
          split
          · rename_i space
            rw [beq_iff_eq] at space
            rw [induction, space]
            rfl
          · rfl

namespace TabsAsSpaces

variable {written shown : Text}

theorem trim_start (same : TabsAsSpaces written shown) :
    TabsAsSpaces (trimStart written) (trimStart shown) := by
  induction same with
  | nil => exact .nil
  | tab rest induction => exact induction
  | same c rest induction =>
      simp only [trimStart, List.dropWhile_cons]
      split
      · exact induction
      · exact .same c rest

theorem trim_end (same : TabsAsSpaces written shown) :
    TabsAsSpaces (trimEnd written) (trimEnd shown) := by
  induction same with
  | nil => exact .nil
  | @tab written shown rest induction =>
      simp only [trimEnd, dropEndWhile] at induction ⊢
      generalize dropEndWhile isBlank written = kept at induction ⊢
      generalize dropEndWhile isBlank shown = kept' at induction ⊢
      cases induction with
      | nil => exact .nil
      | tab rest => exact .tab (.tab rest)
      | same c rest => exact .tab (.same c rest)
  | @same c written shown rest induction =>
      simp only [trimEnd, dropEndWhile] at induction ⊢
      generalize dropEndWhile isBlank written = kept at induction ⊢
      generalize dropEndWhile isBlank shown = kept' at induction ⊢
      cases induction with
      | nil => exact .refl _
      | tab rest => exact .same c (.tab rest)
      | same d rest => exact .same c (.same d rest)

theorem trim (same : TabsAsSpaces written shown) :
    TabsAsSpaces (Text.trim written) (Text.trim shown) :=
  same.trim_start.trim_end

theorem all_eq (inClass : Char → Bool) (noTab : inClass '\t' = false)
    (noSpace : inClass ' ' = false) (same : TabsAsSpaces written shown) :
    shown.all inClass = written.all inClass ∧ (written.all inClass = true → shown = written) := by
  induction same with
  | nil => exact ⟨rfl, fun _ => rfl⟩
  | tab rest induction => simp [noTab, noSpace]
  | same c rest induction =>
      obtain ⟨all, equal⟩ := induction
      simp only [List.all_cons, all, Bool.and_eq_true, true_and]
      intro both
      exact by rw [equal both.2]

end TabsAsSpaces

end Text

namespace AdmonitionSpan

theorem is_closing_line_eq {written shown : Text} (same : TabsAsSpaces written shown) :
    isClosingLine shown = isClosingLine written := by
  obtain ⟨all, equal⟩ := same.trim.all_eq Directive.isFenceMark (by decide) (by decide)
  simp only [isClosingLine, all]
  cases marks : (trim written).all Directive.isFenceMark with
  | false => simp
  | true => rw [equal marks]

theorem not_closing_of_blank {line : Text} (blank : ∀ c ∈ line, isBlank c = true) :
    isClosingLine line = false := by
  rw [isClosingLine, trim_of_blank blank]
  rfl

theorem mark_not_blank {c : Char} (isMark : Directive.isFenceMark c = true) :
    isBlank c = false := by
  simp only [Directive.isFenceMark, Bool.or_eq_true, beq_iff_eq] at isMark
  rcases isMark with (rfl | rfl) | rfl <;> decide

theorem closing_of_closes {mark : Char} {count : Nat} {line : Text}
    (isMark : Directive.isFenceMark mark = true) (long : 3 ≤ count)
    (closes : Directive.closes mark count line = true) : isClosingLine line = true := by
  simp only [Directive.closes, Bool.and_eq_true, decide_eq_true_eq] at closes
  obtain ⟨enough, blank⟩ := closes
  rw [List.all_eq_true] at blank
  generalize fence_eq : (indent line).takeWhile (· == mark) = fence at enough
  have marks : ∀ c ∈ fence, c = mark := fun c member => by
    rw [← fence_eq] at member
    simpa using List.mem_takeWhile_imp member
  have split : indent line = fence ++ (indent line).dropWhile (· == mark) := by
    rw [← fence_eq, List.takeWhile_append_dropWhile]
  have front : trimStart line = indent line := by
    rw [← trim_start_skip_spaces 3 line]
    cases fence with
    | nil =>
        rw [List.length_nil] at enough
        omega
    | cons c fence =>
        have first := marks c (by simp)
        subst first
        change trimStart (indent line) = indent line
        rw [split, List.cons_append, trimStart, List.dropWhile_cons,
          if_neg (by rw [mark_not_blank isMark]; simp)]
  have whole : trim line = fence := by
    rw [trim, front, split]
    exact drop_end_while_append (fun c member => by rw [marks c member, mark_not_blank isMark])
      fun c member => blank_of_space_or_tab (blank c member)
  simp only [isClosingLine, whole, Bool.and_eq_true, decide_eq_true_eq, List.all_eq_true]
  exact ⟨Nat.le_trans long enough, fun c member => by rw [marks c member, isMark]⟩

variable {pageLines : List Text} {low line count bound startLine : Nat}

theorem last_closing_below_eq_none
    (open' : ∀ other, low < other → other < count → (pageLines[other]?).any isClosingLine = false) :
    lastClosingBelow? pageLines low count = none := by
  induction count with
  | zero => rfl
  | succ count induction =>
      rw [lastClosingBelow?]
      split
      · rfl
      · rename_i above
        rw [open' count (by omega) (by omega), if_neg (by simp)]
        exact induction fun other lower upper => open' other lower (by omega)

theorem last_closing_below_eq_some (above : low < line) (below : line < count)
    (closing : (pageLines[line]?).any isClosingLine = true)
    (open' : ∀ other, line < other → other < count →
      (pageLines[other]?).any isClosingLine = false) :
    lastClosingBelow? pageLines low count = some line := by
  induction count with
  | zero => cases below
  | succ count induction =>
      rw [lastClosingBelow?, if_neg (by omega)]
      by_cases last : line = count
      · rw [← last, if_pos closing]
      · rw [open' count (by omega) (by omega), if_neg (by simp)]
        exact induction (by omega) fun other lower upper => open' other lower (by omega)

theorem closing_line_eq (above : startLine < line) (reached : line ≤ bound)
    (closing : (pageLines[line]?).any isClosingLine = true)
    (open' : ∀ other, line < other → other ≤ bound →
      (pageLines[other]?).any isClosingLine = false) :
    closingLine? pageLines startLine bound = if line = startLine + 1 then none else some line := by
  have inside : line < pageLines.length := by
    by_contra outside
    rw [List.getElem?_eq_none (by omega)] at closing
    cases closing
  unfold closingLine?
  split
  · rename_i bare
    exact last_closing_below_eq_none fun other lower upper => open' other (by omega) (by omega)
  · rename_i inner
    exact last_closing_below_eq_some (by omega) (by omega) closing
      fun other lower upper => open' other lower (by omega)

end AdmonitionSpan

end LessonBook
