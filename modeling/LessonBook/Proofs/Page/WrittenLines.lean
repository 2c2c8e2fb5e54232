import LessonBook.Page
import LessonBook.Proofs.Admonition.BracketedLines
import LessonBook.Proofs.Exercise.WrittenText
import LessonBook.Proofs.Notebook.Chunks

/-!
Where the lines that bracketing writes end up in a notebook. They open and close
nothing, so the lines that were kept decide whether a written line lies in a code
cell.
-/

namespace LessonBook

open Text

namespace Notebook

structure IsNeutral (line : Text) : Prop where
  opens : opens? line = none
  closes : ∀ part, Notebook.closes part line = false

theorem neutral_of_star (rest : Text) : IsNeutral ('*' :: rest) := by
  refine ⟨rfl, fun part => ?_⟩
  cases part with
  | prose | chunk => rfl
  | region kind => cases kind <;> rfl

theorem neutral_of_word {word : Text} (member : word ∈ ExerciseBracketing.words) (rest : Text) :
    IsNeutral (word ++ rest) := by
  have shapes : ∀ word ∈ ExerciseBracketing.words,
      word.head? = some '*' ∨ word ∈ ExerciseBracketing.comments := by decide
  rcases shapes word member with star | comment
  · obtain ⟨letters, rfl⟩ := List.head?_eq_some_iff.mp star
    exact neutral_of_star _
  · simp only [ExerciseBracketing.comments, List.mem_cons, List.not_mem_nil, or_false] at comment
    rcases comment with rfl | rfl <;> refine ⟨rfl, fun part => ?_⟩ <;>
      rcases part with _ | _ | (_ | _) <;> rfl

theorem Part.after_of_neutral {line : Text} (neutral : IsNeutral line) (part : Part) :
    part.after line = part := by
  cases part with
  | prose => rw [after, neutral.opens, Option.getD_none]
  | chunk | region => exact after_of_inside (fun same => by cases same) (neutral.closes _)

theorem not_chunk_end_of_mem {line : Text} {c : Char} (member : c ∈ line) (other : c ≠ '\x60')
    (present : isSpaceOrTab c = false) : isChunkEnd line = false := by
  rw [Bool.eq_false_iff]
  intro ends
  rw [isChunkEnd, Bool.and_eq_true, startsWith, List.isPrefixOf_iff_prefix] at ends
  obtain ⟨⟨blanks, rfl⟩, blank⟩ := ends
  rcases List.mem_append.mp member with inFence | behind
  · exact other (List.eq_of_mem_replicate (n := 3) inFence)
  · have space := List.all_eq_true.mp blank c behind
    rw [present] at space
    cases space

end Notebook

open Notebook MarkedText

namespace ExerciseBracketing.Composed

variable {marked : MarkedText}

/-- A line that was written as a whole opens and closes nothing. -/
theorem neutral (composed : Composed marked) (single : '\n' ∉ marked.text)
    (isWritten : marked.isWritten = true) : IsNeutral marked.text := by
  cases composed with
  | nil => cases isWritten
  | kept c composed => simp [MarkedText.isWritten] at isWritten
  | newline composed => exact absurd List.mem_cons_self single
  | word member composed =>
      rw [text_append, text_written]
      exact neutral_of_word member _

theorem not_chunk_end (composed : Composed marked) (single : '\n' ∉ marked.text)
    (isTouched : marked.isTouched = true) : isChunkEnd marked.text = false := by
  obtain ⟨c, member, bracket⟩ : ∃ c ∈ marked.text, c = '*' ∨ c = '<' := by
    induction composed with
    | nil => cases isTouched
    | kept c composed induction =>
        rw [text_cons, List.mem_cons, not_or] at single
        obtain ⟨d, member, bracket⟩ := induction single.2 isTouched
        exact ⟨d, List.mem_cons_of_mem _ member, bracket⟩
    | newline composed => exact absurd List.mem_cons_self single
    | word member composed =>
        obtain ⟨c, letters, rfl, bracket, -⟩ := word_eq member
        exact ⟨c, List.mem_cons_self, bracket⟩
  rcases bracket with rfl | rfl <;> exact not_chunk_end_of_mem member (by decide) rfl

end ExerciseBracketing.Composed

namespace Page

open AdmonitionBracketing ExerciseBracketing

/-- What is written into a page: its lines with the exercises bracketed, and the
admonitions that are bracketed in these lines. -/
structure Writing where
  lines : List MarkedText
  spans : List AdmonitionSpan

namespace Writing

def ofPage (reading : Reading) (page : Text) : Except StructureError Writing := do
  let marked := markedText page
  let spans ← AdmonitionSpan.locate reading marked.text
  .ok ⟨marked.lines, spans⟩

def brackets (writing : Writing) (index : Nat) : Bool :=
  writing.spans.any fun span => index == span.startLine || index == span.endLine

def touches (writing : Writing) (index : Nat) : Bool :=
  writing.brackets index || (writing.lines[index]?).any MarkedText.isTouched

def covers (writing : Writing) (index : Nat) : Bool :=
  writing.brackets index || (writing.lines[index]?).any MarkedText.isWritten

def keptFrom (writing : Writing) (index : Nat) : List Text → List Text
  | [] => []
  | line :: rest =>
      if writing.covers index then keptFrom writing (index + 1) rest
      else line :: keptFrom writing (index + 1) rest

/-- The lines between the header of the output and the line with the given index,
without those that are written as a whole. -/
def keptAbove (writing : Writing) (output : Text) (index : Nat) : List Text :=
  let start := (documentLines output).length - (bodyLines output).length
  writing.keptFrom start ((bodyLines output).take (index - start))

variable {writing : Writing}

theorem parts_of_kept {start : Nat} {pageLines : List Text}
    (neutral : ∀ offset line, pageLines[offset]? = some line →
      writing.covers (start + offset) = true → IsNeutral line) (part : Part) :
    (writing.keptFrom start pageLines).foldl Part.after part = pageLines.foldl Part.after part := by
  induction pageLines generalizing start part with
  | nil => rfl
  | cons line rest induction =>
      have below : ∀ offset other, rest[offset]? = some other →
          writing.covers (start + 1 + offset) = true → IsNeutral other := by
        intro offset other here covered
        rw [Nat.add_assoc, Nat.add_comm 1] at covered
        exact neutral (offset + 1) other here covered
      rw [keptFrom, List.foldl_cons]
      split
      · rename_i covered
        rw [Part.after_of_neutral (neutral 0 line rfl covered)]
        exact induction below part
      · exact induction below _

end Writing

variable {reading : Reading} {kernel : Kernel} {page output : Text} {notebook : Notebook}

theorem bracketed_eq_ok (accepted : bracketed reading page = .ok output) : ∃ plain,
    bracketExercises page = .ok plain ∧ bracketAdmonitions reading plain = .ok output := by
  rw [bracketed] at accepted
  split at accepted
  · cases accepted
  · rename_i plain exercises
    split at accepted
    · cases accepted
    · rename_i result admonitions
      cases accepted
      exact ⟨plain, exercises, admonitions⟩

theorem to_notebook_eq_ok (accepted : toNotebook reading kernel page = .ok notebook) :
    ∃ output read, bracketed reading page = .ok output ∧ Notebook.ofText output = .ok read ∧
      notebook = withKernel kernel read := by
  rw [toNotebook] at accepted
  split at accepted
  · cases accepted
  · rename_i output found
    split at accepted
    · cases accepted
    · rename_i read cells
      cases accepted
      exact ⟨output, read, found, cells, rfl⟩

namespace Writing

variable {writing : Writing}

/-- The writing accounts for the lines of the output: each of them brackets an
admonition, or is one of the marked lines. -/
structure Accounts (writing : Writing) (output : Text) : Prop where
  bracketing : ∀ index, writing.brackets index = true →
    ∃ rest, (documentLines output)[index]? = some ('*' :: rest)
  marked : ∀ index, writing.brackets index = false →
    (documentLines output)[index]? = (writing.lines[index]?).map MarkedText.text
  composed : ∀ line ∈ writing.lines, Composed line

theorem accounts_for_output (accepted : bracketed reading page = .ok output) :
    ∃ writing, ofPage reading page = .ok writing ∧ writing.Accounts output := by
  obtain ⟨plain, exercises, admonitions⟩ := bracketed_eq_ok accepted
  obtain ⟨spans, located, applied⟩ := bracket_admonitions_eq_ok admonitions
  have lines := Bracketed.of_apply_spans (AdmonitionSpan.located_end located) applied
  have shown := text_of_bracketed exercises
  have at_index (index : Nat) : (documentLines output)[index]? =
      textAt? (linesWithEnds output) index := by
    rw [documentLines, lines_normalize, List.getElem?_map, textAt?]
  refine ⟨⟨(markedText page).lines, spans⟩, ?_, ?_, ?_, ?_⟩
  · rw [ofPage, shown, located]
    rfl
  · intro index brackets
    obtain ⟨span, member, bound⟩ := List.any_eq_true.mp brackets
    rw [Bool.or_eq_true, beq_iff_eq, beq_iff_eq] at bound
    rcases bound with rfl | rfl
    · obtain ⟨header, -, text⟩ := lines.opened span member
      obtain ⟨rest, start⟩ := start_text_eq header
      rw [at_index, text, start]
      exact ⟨_, rfl⟩
    · obtain ⟨_, header, -, -, text⟩ := lines.closed span member
      rw [at_index, text]
      exact ⟨_, rfl⟩
  · intro index brackets
    have outside : ∀ span ∈ spans, index ≠ span.startLine ∧ index ≠ span.endLine := by
      intro span member
      have apart := List.any_eq_false.mp brackets span member
      simpa using apart
    have same : textAt? (linesWithEnds plain) index =
        ((markedText page).lines[index]?).map MarkedText.text := by
      rw [textAt?, ← List.getElem?_map, ← List.getElem?_map, lines_text, shown]
    rw [at_index, textAt?, lines.kept index outside]
    exact same
  · exact (composed_marked_text page).of_lines

namespace Accounts

variable (accounts : writing.Accounts output) {index : Nat} {line : Text}
include accounts

theorem marked_line {property : MarkedText → Bool} (unbracketed : writing.brackets index = false)
    (found : (writing.lines[index]?).any property = true) : ∃ marked, property marked = true ∧
      (documentLines output)[index]? = some marked.text ∧ '\n' ∉ marked.text ∧ Composed marked := by
  obtain ⟨marked, here, holds⟩ := (Option.any_eq_true _ _).mp found
  have standing := accounts.marked index unbracketed
  rw [here, Option.map_some] at standing
  exact ⟨marked, holds, standing, no_newline_of_mem_lines (List.mem_of_getElem? standing),
    accounts.composed marked (List.mem_of_getElem? here)⟩

theorem neutral (here : (documentLines output)[index]? = some line)
    (covered : writing.covers index = true) : IsNeutral line := by
  cases brackets : writing.brackets index with
  | true =>
      obtain ⟨rest, shown⟩ := accounts.bracketing index brackets
      rw [here] at shown
      cases shown
      exact neutral_of_star rest
  | false =>
      rw [covers, brackets, Bool.false_or] at covered
      obtain ⟨marked, written, shown, single, composed⟩ := accounts.marked_line brackets covered
      rw [here] at shown
      cases shown
      exact composed.neutral single written

theorem not_chunk_end (touched : writing.touches index = true) :
    ∃ line, (documentLines output)[index]? = some line ∧ isChunkEnd line = false := by
  cases brackets : writing.brackets index with
  | true =>
      obtain ⟨rest, shown⟩ := accounts.bracketing index brackets
      exact ⟨_, shown, rfl⟩
  | false =>
      rw [touches, brackets, Bool.false_or] at touched
      obtain ⟨marked, written, shown, single, composed⟩ := accounts.marked_line brackets touched
      exact ⟨_, shown, composed.not_chunk_end single written⟩

/-- A line that something was written into lies in a chunk exactly where the kept
lines above it leave one open. -/
theorem in_chunk_iff {stretches : List Stretch} (divided : Divided (bodyLines output) stretches)
    (touched : writing.touches index = true) :
    (∃ chunk ∈ Chunk.ofPage output stretches, chunk.Holds index) ↔
      ∃ metadata, (writing.keptAbove output index).foldl Part.after .prose = .chunk metadata := by
  obtain ⟨above, whole, start⟩ := above_body output
  rw [Chunk.ofPage, keptAbove, start]
  rcases Nat.lt_or_ge index above.length with early | late
  · -- the line belongs to the header, and no chunk begins there
    refine iff_of_false ?_ ?_
    · rintro ⟨chunk, member, lower, -⟩
      have bound := Chunk.le_line_of_mem member
      omega
    · rintro ⟨metadata, state⟩
      rw [Nat.sub_eq_zero_of_le (Nat.le_of_lt early)] at state
      cases state
  · obtain ⟨offset, rfl⟩ := Nat.exists_eq_add_of_le late
    have in_body (offset : Nat) :
        (documentLines output)[above.length + offset]? = (bodyLines output)[offset]? := by
      rw [← whole, List.getElem?_append_right (Nat.le_add_right _ _), Nat.add_sub_cancel_left]
    have states : (writing.keptFrom above.length ((bodyLines output).take offset)).foldl
        Part.after .prose = ((bodyLines output).take offset).foldl Part.after .prose := by
      apply parts_of_kept
      intro offset' line here covered
      apply accounts.neutral _ covered
      rw [in_body]
      rw [List.getElem?_take, Option.ite_none_right_eq_some] at here
      exact here.2
    obtain ⟨line, here, goesOn⟩ := accounts.not_chunk_end touched
    rw [in_body] at here
    rw [Chunk.holds_iff divided, Nat.add_sub_cancel_left, states, InChunk]
    constructor
    · rintro ⟨metadata, _, _, state, _⟩
      exact ⟨metadata, state⟩
    · rintro ⟨metadata, state⟩
      exact ⟨metadata, line, here, state, goesOn⟩

end Accounts

end Writing

/-- The code cells of the notebook of a page are chunks of the page with its exercises
and admonitions bracketed. What bracketing writes lies in such a chunk exactly where
the lines that were kept leave it open. -/
theorem written_line_in_chunk_iff {reading : Reading} {kernel : Kernel} {page : Text}
    {notebook : Notebook} (accepted : toNotebook reading kernel page = .ok notebook) :
    ∃ writing output stretches, Writing.ofPage reading page = .ok writing ∧
      bracketed reading page = .ok output ∧ Divided (bodyLines output) stretches ∧
      notebook.cells.filter (fun cell => cell.kind = .code) =
        (Chunk.ofPage output stretches).map Chunk.cell ∧
      (∀ chunk ∈ Chunk.ofPage output stretches, chunk.StandsIn (documentLines output)) ∧
      ∀ index, writing.touches index = true →
        ((∃ chunk ∈ Chunk.ofPage output stretches, chunk.Holds index) ↔ ∃ metadata,
          (writing.keptAbove output index).foldl Part.after .prose = .chunk metadata) := by
  obtain ⟨output, read, found, cells, rfl⟩ := to_notebook_eq_ok accepted
  obtain ⟨writing, written, accounts⟩ := Writing.accounts_for_output found
  obtain ⟨stretches, divided⟩ := divided_exists (bodyLines output)
  have code := code_cells_of_page cells divided
  exact ⟨writing, output, stretches, written, found, divided, code,
    fun chunk => Chunk.stands_of_page divided, fun index => accounts.in_chunk_iff divided⟩

/-- An exercise begins in a chunk and ends behind it, both in an admonition. -/
theorem written_line_in_chunk_iff_lesson :
    let page := (":::\x7bnote\x7d\n```\x7bpython\x7d\n1\n~~~\x7bexercise-start\x7d\n~~~\n```\n" ++
      "~~~\x7bexercise-end\x7d\n:::\n").toList
    ∃ notebook writing output stretches, toNotebook {} {} page = .ok notebook ∧
      Writing.ofPage {} page = .ok writing ∧
      bracketed {} page = .ok output ∧ Divided (bodyLines output) stretches ∧
      notebook.cells.filter (fun cell => cell.kind = .code) =
        (Chunk.ofPage output stretches).map Chunk.cell ∧
      (∀ chunk ∈ Chunk.ofPage output stretches, chunk.StandsIn (documentLines output)) ∧
      ∀ index, writing.touches index = true →
        ((∃ chunk ∈ Chunk.ofPage output stretches, chunk.Holds index) ↔ ∃ metadata,
          (writing.keptAbove output index).foldl Part.after .prose = .chunk metadata) := by
  intro page
  have isAccepted : (toNotebook {} {} page).isOk = true := by decide +kernel
  cases accepted : toNotebook {} {} page with
  | error problem =>
      rw [accepted] at isAccepted
      cases isAccepted
  | ok notebook =>
      obtain ⟨writing, output, stretches, agrees⟩ := written_line_in_chunk_iff accepted
      exact ⟨notebook, writing, output, stretches, rfl, agrees⟩

/-- The line is no line of the page, and is one in a code cell of its notebook. -/
def IsWrittenInCode (line page : Text) : Prop :=
  line ∉ documentLines page ∧ ∃ notebook, toNotebook {} {} page = .ok notebook ∧
    ∃ cell ∈ notebook.cells, cell.kind = .code ∧ line ∈ lines cell.source

theorem written_in_code_of_cells {line page : Text} (unwritten : line ∉ documentLines page)
    (inCode : (match toNotebook {} {} page with
      | .ok notebook => notebook.cells.any fun cell =>
          decide (cell.kind = .code ∧ line ∈ lines cell.source)
      | .error _ => false) = true) : IsWrittenInCode line page := by
  refine ⟨unwritten, ?_⟩
  cases accepted : toNotebook {} {} page with
  | error problem =>
      rw [accepted] at inCode
      cases inCode
  | ok notebook =>
      rw [accepted] at inCode
      obtain ⟨cell, member, holds⟩ := List.any_eq_true.mp inCode
      obtain ⟨kind, inside⟩ := of_decide_eq_true holds
      exact ⟨notebook, rfl, cell, member, kind, inside⟩

/-- A marker in a string of a chunk becomes a line of its code, and so does the opening
line of an admonition below a fence that is longer than the one that opens the chunk. -/
theorem bracketing_becomes_code :
    IsWrittenInCode exerciseStart
        ("```\x7bpython\x7d\nx = \x27\x27\x27\n~~~\x7bexercise-start\x7d\n~~~\ny\n" ++
          "~~~\x7bexercise-end\x7d\n~~~\n\x27\x27\x27\n```\n").toList ∧
      IsWrittenInCode "**Start of note**".toList
        "```\x7bpython\x7d\n1\n````\n:::\x7bnote\x7d\nx\n:::\n".toList := by
  constructor
  · apply written_in_code_of_cells <;> decide +kernel
  · apply written_in_code_of_cells <;> decide +kernel

end Page

end LessonBook
