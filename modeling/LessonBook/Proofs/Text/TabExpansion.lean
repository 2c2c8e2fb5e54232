import Mathlib.Data.List.Forall2
import LessonBook.Markup.Block.Reader
import LessonBook.Proofs.Text.Lines
import LessonBook.Proofs.Text.Weight

/-!
Reading a page, and then the body of a directive on it, writes some tabs as
spaces. What is read has the lines of the page up to such tabs.
-/

namespace LessonBook.Text

/-- The second text is the first one with some of its tabs written as four spaces. -/
inductive TabsAsSpaces : Text → Text → Prop
  | nil : TabsAsSpaces [] []
  | tab {written shown : Text} (rest : TabsAsSpaces written shown) :
      TabsAsSpaces ('\t' :: written) (' ' :: ' ' :: ' ' :: ' ' :: shown)
  | same (c : Char) {written shown : Text} (rest : TabsAsSpaces written shown) :
      TabsAsSpaces (c :: written) (c :: shown)

namespace TabsAsSpaces

variable {written shown final : Text}

theorem refl (text : Text) : TabsAsSpaces text text := by
  induction text with
  | nil => exact .nil
  | cons c text induction => exact .same c induction

theorem trans (first : TabsAsSpaces written shown) (second : TabsAsSpaces shown final) :
    TabsAsSpaces written final := by
  induction first generalizing final with
  | nil => exact second
  | tab rest induction =>
      -- spaces are never replaced again, so the four of the first step are kept
      cases second with
      | same _ second =>
          cases second with
          | same _ second =>
              cases second with
              | same _ second =>
                  cases second with
                  | same _ second => exact .tab (induction second)
  | same c rest induction =>
      cases second with
      | tab second => exact .tab (induction second)
      | same _ second => exact .same c (induction second)

theorem of_expand_tabs (leading inTabs : Bool) (text : Text) :
    TabsAsSpaces text (BlockReader.expandTabs leading inTabs text) := by
  induction text generalizing leading inTabs with
  | nil => exact .nil
  | cons c text induction =>
      rw [BlockReader.expandTabs]
      split
      · rename_i isTab
        rw [Bool.and_eq_true, beq_iff_eq] at isTab
        rw [isTab.1]
        exact .tab (induction false true)
      · split
        · exact .same c (induction true false)
        · exact .same c (induction _ false)

theorem of_expand (text : Text) : TabsAsSpaces text (BlockReader.expandLeadingTabs text) :=
  of_expand_tabs true false text

theorem lines (same : TabsAsSpaces written shown) :
    List.Forall₂ TabsAsSpaces (Text.lines written) (Text.lines shown) := by
  induction same with
  | nil => exact .cons .nil .nil
  | @tab written shown rest induction =>
      generalize cut : Text.lines written = pieces at induction
      generalize cut' : Text.lines shown = pieces' at induction
      cases induction with
      | nil => exact absurd cut (lines_ne_nil written)
      | cons first others =>
          have tabbed : '\n' ∉ ['\t'] := by decide
          have spaced : '\n' ∉ [' ', ' ', ' ', ' '] := by decide
          have left := lines_append_of_no_newline tabbed cut
          have right := lines_append_of_no_newline spaced cut'
          simp only [List.cons_append, List.nil_append] at left right
          rw [left, right]
          exact .cons (.tab first) others
  | @same c written shown rest induction =>
      by_cases newline : c = '\n'
      · rw [newline, lines_newline, lines_newline]
        exact .cons .nil induction
      · obtain ⟨_, _, cut, longer⟩ := lines_cons newline written
        obtain ⟨_, _, cut', longer'⟩ := lines_cons newline shown
        rw [cut, cut'] at induction
        rw [longer, longer']
        cases induction with
        | cons first others => exact .cons (.same c first) others

theorem newline_count (same : TabsAsSpaces written shown) :
    newlineCount shown = newlineCount written := by
  have lengths := same.lines.length_eq
  rw [length_lines, length_lines] at lengths
  omega

/-- Every line that is read stands in the same place where it was written. -/
theorem get_line {index : Nat} {line : Text} (same : TabsAsSpaces written shown)
    (found : (Text.lines shown)[index]? = some line) :
    ∃ source, (Text.lines written)[index]? = some source ∧ TabsAsSpaces source line := by
  obtain ⟨inside, rfl⟩ := List.getElem?_eq_some_iff.mp found
  have inside' : index < (Text.lines written).length := same.lines.length_eq ▸ inside
  exact ⟨_, List.getElem?_eq_getElem inside', same.lines.get inside' inside⟩

theorem weight_le {written shown : Text} (same : TabsAsSpaces written shown) :
    weight shown ≤ weight written := by
  induction same with
  | nil => exact Nat.le_refl _
  | @tab written shown rest induction =>
      have bare : weight ([' ', ' ', ' ', ' '] ++ shown) = weight shown :=
        weight_spaces_append (by simp) shown
      rw [weight_cons (by decide) written]
      exact bare.trans_le (Nat.le_succ_of_le induction)
  | same c rest induction => exact weight_cons_le induction c

end TabsAsSpaces

theorem weight_expand_le (text : Text) :
    weight (BlockReader.expandLeadingTabs text) ≤ weight text :=
  (TabsAsSpaces.of_expand text).weight_le

open BlockReader

/-- Behind a newline tabs are written as spaces again, as on the first line. -/
theorem lines_expand_tabs (leading inTabs : Bool) {text first : Text} {others : List Text}
    (cut : Text.lines text = first :: others) :
    Text.lines (expandTabs leading inTabs text) =
      expandTabs leading inTabs first :: others.map expandLeadingTabs := by
  induction text generalizing leading inTabs first others with
  | nil =>
      cases cut
      rfl
  | cons c text induction =>
      by_cases newline : c = '\n'
      · subst newline
        rw [lines_newline, List.cons.injEq] at cut
        obtain ⟨rfl, rfl⟩ := cut
        have below : expandTabs leading inTabs ('\n' :: text) =
            '\n' :: expandLeadingTabs text := by
          simp [expandTabs, expandLeadingTabs, isTerminator]
        rw [below, lines_newline]
        cases pieces : Text.lines text with
        | nil => exact absurd pieces (lines_ne_nil text)
        | cons piece pieces' =>
            rw [expandLeadingTabs, induction true false pieces]
            rfl
      · obtain ⟨front, more, pieces, longer⟩ := lines_cons newline text
        rw [longer, List.cons.injEq] at cut
        obtain ⟨rfl, rfl⟩ := cut
        have single {word : Text} (plain : '\n' ∉ word) (leading inTabs : Bool) :
            Text.lines (word ++ expandTabs leading inTabs text) =
              (word ++ expandTabs leading inTabs front) :: more.map expandLeadingTabs :=
          lines_append_of_no_newline plain (induction leading inTabs pieces)
        have plain : '\n' ∉ [c] := by simpa using Ne.symm newline
        rw [expandTabs, expandTabs]
        split
        · exact single (by decide) false true
        · split
          · exact single plain true false
          · exact single plain (isTerminator c) false

theorem lines_expand (text : Text) :
    Text.lines (expandLeadingTabs text) = (Text.lines text).map expandLeadingTabs := by
  cases cut : Text.lines text with
  | nil => exact absurd cut (lines_ne_nil text)
  | cons first others =>
      rw [expandLeadingTabs, lines_expand_tabs true false cut]
      rfl

end LessonBook.Text
