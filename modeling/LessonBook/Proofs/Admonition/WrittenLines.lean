import Mathlib.Data.Finset.Card
import Mathlib.Data.Finset.Dedup
import LessonBook.Proofs.Admonition.Laminar

/-!
How many lines replacing the admonitions of a page writes: one for the beginning
of each admonition, and one for each line with which some admonition ends. These
are equally many when the spans are nested like the admonitions.
-/

namespace LessonBook

open Text

section Count

variable {Item : Type} {test : Item → Bool} {before after : List Item} {changed : Finset Nat}

theorem count_eq_card (items : List Item) (test : Item → Bool) :
    items.countP test =
      ((Finset.range items.length).filter fun index => (items[index]?).any test = true).card := by
  induction items using List.reverseRec with
  | nil => rfl
  | append_singleton items item induction =>
      have kept : ((Finset.range items.length).filter fun index =>
          ((items ++ [item])[index]?).any test = true) =
          (Finset.range items.length).filter fun index => (items[index]?).any test = true := by
        apply Finset.filter_congr
        intro index inside
        rw [List.getElem?_append_left (Finset.mem_range.mp inside)]
      rw [List.countP_append, induction, List.length_append, List.length_singleton,
        Finset.range_add_one, Finset.filter_insert, kept, List.getElem?_concat_length,
        Option.any_some, List.countP_singleton]
      split
      · rw [Finset.card_insert_of_notMem (by simp)]
      · rfl

/-- If an item passes the test where it was changed and only there does the answer
differ, as many more items pass as were changed. -/
theorem count_of_changed (length : after.length = before.length)
    (fresh : ∀ index ∈ changed, (after[index]?).any test = true ∧
      (before[index]?).any test = false)
    (kept : ∀ index, index ∉ changed → (after[index]?).any test = (before[index]?).any test) :
    after.countP test = before.countP test + changed.card := by
  have inside : ∀ index ∈ changed, index < before.length := by
    intro index member
    by_contra outside
    have passes := (fresh index member).1
    rw [List.getElem?_eq_none (by omega)] at passes
    cases passes
  rw [count_eq_card, count_eq_card, length, ← Finset.card_union_of_disjoint]
  · congr 1
    ext index
    rw [Finset.mem_union, Finset.mem_filter, Finset.mem_filter, Finset.mem_range]
    by_cases member : index ∈ changed
    · simp [member, inside index member, (fresh index member).1]
    · simp [member, kept index member]
  · rw [Finset.disjoint_left]
    intro index member changed'
    rw [Finset.mem_filter, (fresh index changed').2] at member
    cases member.2

end Count

namespace AdmonitionBracketing

open AdmonitionSpan

def startWord : Text := "**Start of ".toList

def endWord : Text := "**End of ".toList

def linesWith (word page : Text) : Nat :=
  (linesWithEnds page).countP fun line => startsWith word line.1

theorem not_starts_of_header {line word : Text} {header : Header}
    (found : header? line = some header) : startsWith ('*' :: word) line = false := by
  cases line with
  | nil => rfl
  | cons c line =>
      by_cases star : c = '*'
      · rw [star, header_of_star] at found
        cases found
      · simp [startsWith, List.isPrefixOf, Ne.symm star]

theorem not_starts_of_closing {line word : Text} (closing : isClosingLine line = true) :
    startsWith ('*' :: word) line = false := by
  cases line with
  | nil => rfl
  | cons c line =>
      by_cases star : c = '*'
      · simp only [isClosingLine, Bool.and_eq_true, List.all_eq_true] at closing
        have inside : c ∈ trim (c :: line) := mem_trim (by rw [star]; decide) List.mem_cons_self
        rw [star] at closing inside
        exact absurd (closing.2 '*' inside) (by decide)
      · simp [startsWith, List.isPrefixOf, Ne.symm star]

theorem start_text_starts (header : Header) :
    startsWith startWord (startText header) = true ∧
      startsWith endWord (startText header) = false := by
  obtain ⟨rest, shown⟩ := start_text_eq header
  rw [shown]
  exact ⟨rfl, rfl⟩

theorem end_text_starts (type : Text) :
    startsWith endWord (endText type) = true ∧ startsWith startWord (endText type) = false :=
  ⟨rfl, rfl⟩

variable {spans : List AdmonitionSpan} {before after : List (Text × Text)} {word : Text}

theorem any_text_at (pageLines : List (Text × Text)) (index : Nat) (word : Text) :
    ((pageLines[index]?).any fun line => startsWith word line.1) =
      (textAt? pageLines index).any (startsWith word) := by
  rw [textAt?, Option.any_map]

namespace Bracketed

theorem starts_of_kept (bracketed : Bracketed spans before after) {index : Nat}
    (outside : ∀ span ∈ spans, index ≠ span.startLine ∧ index ≠ span.endLine) :
    (textAt? after index).any (startsWith word) = (textAt? before index).any (startsWith word) := by
  rw [textAt?, textAt?, bracketed.kept index outside]

theorem starts_at_start (bracketed : Bracketed spans before after) {span : AdmonitionSpan}
    (member : span ∈ spans) :
    (textAt? after span.startLine).any (startsWith startWord) = true ∧
      (textAt? after span.startLine).any (startsWith endWord) = false ∧
      ∀ word, (textAt? before span.startLine).any (startsWith ('*' :: word)) = false := by
  obtain ⟨header, read, shown⟩ := bracketed.opened span member
  rw [shown]
  refine ⟨(start_text_starts header).1, (start_text_starts header).2, fun word => ?_⟩
  rw [openingHeader?, Option.bind_eq_some_iff] at read
  obtain ⟨line, here, found⟩ := read
  rw [here, Option.any_some]
  exact not_starts_of_header found

theorem starts_at_end (bracketed : Bracketed spans before after) {span : AdmonitionSpan}
    (member : span ∈ spans) (ends : span.EndsIn (before.map Prod.fst)) :
    (textAt? after span.endLine).any (startsWith endWord) = true ∧
      (textAt? after span.endLine).any (startsWith startWord) = false ∧
      ∀ word, (textAt? before span.endLine).any (startsWith ('*' :: word)) = false := by
  obtain ⟨last, header, -, -, shown⟩ := bracketed.closed span member
  rw [shown]
  refine ⟨(end_text_starts header.type).1, (end_text_starts header.type).2, fun word => ?_⟩
  have closing := ends.closing
  rw [List.getElem?_map, Option.any_eq_true] at closing
  obtain ⟨line, here, closing⟩ := closing
  rw [textAt?, here, Option.any_some]
  exact not_starts_of_closing closing

theorem count_starts (bracketed : Bracketed spans before after)
    (ends : ∀ span ∈ spans, span.EndsIn (before.map Prod.fst)) :
    (after.countP fun line => startsWith startWord line.1) =
      (before.countP fun line => startsWith startWord line.1) + spans.length := by
  have size : (spans.map startLine).toFinset.card = spans.length := by
    rw [List.toFinset_card_of_nodup bracketed.apart, List.length_map]
  rw [← size]
  apply count_of_changed bracketed.length_eq
  · intro index member
    rw [List.mem_toFinset, List.mem_map] at member
    obtain ⟨span, inside, rfl⟩ := member
    obtain ⟨starts, -, fresh⟩ := bracketed.starts_at_start inside
    rw [any_text_at, any_text_at]
    exact ⟨starts, fresh _⟩
  · intro index outside
    rw [List.mem_toFinset, List.mem_map] at outside
    rw [any_text_at, any_text_at]
    by_cases closes : ∃ span ∈ spans, index = span.endLine
    · obtain ⟨span, inside, rfl⟩ := closes
      obtain ⟨-, written, fresh⟩ := bracketed.starts_at_end inside (ends span inside)
      rw [written]
      exact (fresh _).symm
    · apply bracketed.starts_of_kept
      intro span inside
      exact ⟨fun same => outside ⟨span, inside, same.symm⟩, fun same => closes ⟨span, inside, same⟩⟩

theorem count_ends (bracketed : Bracketed spans before after)
    (ends : ∀ span ∈ spans, span.EndsIn (before.map Prod.fst)) :
    (after.countP fun line => startsWith endWord line.1) =
      (before.countP fun line => startsWith endWord line.1) +
        (spans.map endLine).toFinset.card := by
  apply count_of_changed bracketed.length_eq
  · intro index member
    rw [List.mem_toFinset, List.mem_map] at member
    obtain ⟨span, inside, rfl⟩ := member
    obtain ⟨starts, -, fresh⟩ := bracketed.starts_at_end inside (ends span inside)
    rw [any_text_at, any_text_at]
    exact ⟨starts, fresh _⟩
  · intro index outside
    rw [List.mem_toFinset, List.mem_map] at outside
    rw [any_text_at, any_text_at]
    by_cases opens : ∃ span ∈ spans, index = span.startLine
    · obtain ⟨span, inside, rfl⟩ := opens
      obtain ⟨-, written, fresh⟩ := bracketed.starts_at_start inside
      rw [written]
      exact (fresh _).symm
    · apply bracketed.starts_of_kept
      intro span inside
      exact ⟨fun same => opens ⟨span, inside, same⟩, fun same => outside ⟨span, inside, same.symm⟩⟩

end Bracketed

end AdmonitionBracketing

open AdmonitionBracketing AdmonitionSpan

theorem card_eq_length_iff (numbers : List Nat) :
    numbers.toFinset.card = numbers.length ↔ numbers.Nodup := by
  rw [List.card_toFinset]
  constructor
  · intro same
    rw [← List.dedup_eq_self, (List.dedup_sublist numbers).eq_of_length same]
  · intro nodup
    rw [nodup.dedup]

/-- The spans of a page are nested like its admonitions exactly when no node behind
an inner admonition begins below the end of the outer one. As many lines are written
for the ends as for the beginnings exactly when no two spans end with the same line. -/
theorem located_laminar_iff {reading : Reading} {page : Text} {tree : Tree}
    {spans : List AdmonitionSpan} (read : Tree.ofText reading page = .ok tree)
    (located : locate reading page = .ok spans) :
    (IsLaminar spans ∧ BeginInside tree.nodes spans ↔ StayAbove tree.nodes spans) ∧
      ∀ output, bracketAdmonitions reading page = .ok output →
        linesWith startWord output = linesWith startWord page + spans.length ∧
          (linesWith endWord output = linesWith endWord page + spans.length ↔
            (spans.map endLine).Nodup) := by
  refine ⟨laminar_iff_stay_above read located, fun output bracketed => ?_⟩
  obtain ⟨spans', located', applied⟩ := bracket_admonitions_eq_ok bracketed
  rw [located] at located'
  cases located'
  have ends := located_end located
  have lines := Bracketed.of_apply_spans ends applied
  refine ⟨lines.count_starts ends, ?_⟩
  rw [← card_eq_length_iff, List.length_map]
  simp only [linesWith, lines.count_ends ends, Nat.add_left_cancel_iff]

/-- The node behind the inner admonition begins above the end of the outer one. -/
theorem located_laminar_nested : ∃ tree spans,
    Tree.ofText {} "::::\x7bnote\x7d\n:::\x7btip\x7d\ninner\n:::\nlater\n::::\n".toList = .ok tree ∧
      locate {} "::::\x7bnote\x7d\n:::\x7btip\x7d\ninner\n:::\nlater\n::::\n".toList = .ok spans ∧
      StayAbove tree.nodes spans ∧ IsLaminar spans ∧ BeginInside tree.nodes spans := by
  have located : locate {} "::::\x7bnote\x7d\n:::\x7btip\x7d\ninner\n:::\nlater\n::::\n".toList =
      .ok [⟨0, 5, "note".toList, none⟩, ⟨1, 3, "tip".toList, none⟩] := by decide +kernel
  refine ⟨_, _, Tree.of_text_severe .., located, ?_⟩
  have nested := (located_laminar_iff (Tree.of_text_severe ..) located).1
  rw [nested, and_self]
  decide +kernel

/-- The outer admonition is not closed, and takes the fence that closes the inner one
for its end: the heading behind the inner one begins below it. -/
theorem located_shared_end : ∃ spans output,
    locate {} "~~~\x7bnote\x7d\n:::\x7btip\x7d\nx\n:::\n# h\n".toList = .ok spans ∧
      bracketAdmonitions {} "~~~\x7bnote\x7d\n:::\x7btip\x7d\nx\n:::\n# h\n".toList = .ok output ∧
      ¬IsLaminar spans ∧ linesWith startWord output = 2 ∧ linesWith endWord output = 1 := by
  refine ⟨[⟨0, 3, "note".toList, none⟩, ⟨1, 3, "tip".toList, none⟩],
    "**Start of note**\n**Start of tip**\nx\n**End of tip**\n# h\n".toList, ?_, ?_, ?_, ?_, ?_⟩
  · decide +kernel
  · decide +kernel
  · intro laminar
    exact absurd laminar.closing (by decide)
  · decide +kernel
  · decide +kernel

end LessonBook
