import LessonBook.Proofs.Markup.Progress
import LessonBook.Proofs.Text.TabExpansion

/-!
The bound on reading is never felt: every step makes the text lighter, and so is
every text inside of a block, so any two bounds above the weight of the text give
the same blocks at every depth.
-/

namespace LessonBook.BlockReader

open Text Recognizer

variable {enabled : List Extension} {inner other : Inner} {progress : Progress} {text : Text}

def AgreeBelow (text : Text) (inner other : Inner) : Prop :=
  ∀ paragraphs body, weight body < weight text → inner paragraphs body = other paragraphs body

theorem directive_step_congr {colonFence : Bool} (agree : AgreeBelow text inner other) :
    directiveStep colonFence inner progress text = directiveStep colonFence other progress text := by
  cases read : Directive.read? colonFence text with
  | none => simp [directiveStep, read]
  | some found =>
      obtain ⟨directive, rest⟩ := found
      simp [directiveStep, read, agree _ _ (Directive.body_lighter read)]

theorem quote_step_congr (agree : AgreeBelow text inner other) :
    quoteStep inner progress text = quoteStep other progress text := by
  cases read : Quote.read? text with
  | none => simp [quoteStep, read]
  | some found =>
      obtain ⟨content, rest⟩ := found
      simp [quoteStep, read, agree _ _ (Quote.content_of_read_lighter read)]

theorem list_step_congr {checkBoxes : Bool} (agree : AgreeBelow text inner other) :
    listStep checkBoxes inner progress text = listStep checkBoxes other progress text := by
  cases read : ListItem.readList? checkBoxes text with
  | none => simp [listStep, read]
  | some found =>
      obtain ⟨contents, rest⟩ := found
      have items : contents.map (inner false) = contents.map (other false) :=
        List.map_congr_left fun content member =>
          agree false content (ListItem.content_of_read_list_lighter read member)
      simp [listStep, read, items]

theorem first_step_congr (agree : AgreeBelow text inner other) :
    firstStep progress text (steps enabled inner) = firstStep progress text (steps enabled other) := by
  simp only [steps, firstStep, directive_step_congr agree, quote_step_congr agree,
    list_step_congr agree]

/-- The induction is on the smaller need: a step leaves less text or none, and inner
texts are lighter, so the bounds of both runs stay above what they have to read. -/
theorem read_from_eq_of_enough {fuel more : Nat} (enough : weight text < fuel)
    (enoughToo : weight text < more) :
    readFrom enabled fuel progress text = readFrom enabled more progress text := by
  induction fuel generalizing more progress text with
  | zero => exact absurd enough (Nat.not_lt_zero _)
  | succ fuel induction =>
      obtain ⟨more, rfl⟩ := Nat.exists_eq_succ_of_ne_zero (Nat.ne_zero_of_lt enoughToo)
      have agree : AgreeBelow text (innerBlocks enabled fuel) (innerBlocks enabled more) := by
        intro paragraphs body lighter
        have shown := Nat.lt_of_le_of_lt (weight_expand_le body) lighter
        have inside := shown.trans_le (Nat.le_of_lt_succ enough)
        rw [innerBlocks, innerBlocks, induction inside (shown.trans_le (Nat.le_of_lt_succ enoughToo))]
      rw [read_from_succ, read_from_succ, first_step_congr agree]
      split
      · rfl
      · rename_i present
        split
        · rename_i next rest found
          rcases first_step_progresses (by simpa using present) found with rfl | consumes
          · have done (count : Nat) : readFrom enabled count next [] = next := by
              cases count <;> rfl
            rw [done, done]
          · exact induction (consumes.lighter.trans_le (Nat.le_of_lt_succ enough))
              (consumes.lighter.trans_le (Nat.le_of_lt_succ enoughToo))
        · rfl

theorem inner_blocks_eq_of_enough {fuel more : Nat} {body : Text} (paragraphs : Bool)
    (enough : weight body < fuel) (enoughToo : weight body < more) :
    innerBlocks enabled fuel paragraphs body = innerBlocks enabled more paragraphs body := by
  have shown := weight_expand_le body
  rw [innerBlocks, innerBlocks,
    read_from_eq_of_enough (shown.trans_lt enough) (shown.trans_lt enoughToo)]

end LessonBook.BlockReader

namespace LessonBook

open Text BlockReader

/-- A page is read with a bound above its weight, and any other such bound would do. -/
theorem Block.of_text_eq_of_enough (enabled : List Extension) (page : Text) {fuel : Nat}
    (enough : weight (source page) < fuel) :
    Block.ofText enabled page = (readFrom enabled fuel (.start true) (source page)).blocks.reverse := by
  have bound : weight (source page) < (normalizeLineEnds page).length + 2 :=
    Nat.lt_add_right 1 <| Nat.lt_succ_of_le <|
      (weight_expand_le (normalizeLineEnds page)).trans (weight_le_length _)
  exact congrArg (fun read => read.blocks.reverse) (read_from_eq_of_enough bound enough)

end LessonBook
