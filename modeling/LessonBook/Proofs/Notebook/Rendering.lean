import LessonBook.Proofs.Admonition.LineEnds
import LessonBook.Proofs.Notebook.Stretches
import Mathlib.Data.List.Chain

/-!
Notebooks written as documents: a code cell as a chunk, a raw cell between
comments, a markdown cell as its lines, and two blank lines between cells. Reading
such a document gives the cells back.
-/

namespace LessonBook.Notebook

open Text

def plainChunkOpening : Text := fence ++ "\x7bpython\x7d".toList

def rawOpening : Text := "<!-- #raw -->".toList

def rawClosing : Text := "<!-- #endraw -->".toList

def cellLines (cell : Cell) : List Text :=
  match cell.kind with
  | .code => plainChunkOpening :: (lines cell.source ++ [fence])
  | .raw => rawOpening :: (lines cell.source ++ [rawClosing])
  | .markdown | .other _ => lines cell.source

def render (cells : List Cell) : Text :=
  intercalate ['\n', '\n', '\n'] (cells.map fun cell => joinLines (cellLines cell))

def FilledEnds (lines : List Text) : Prop :=
  (∀ line ∈ lines.head?, isBlankLine line = false) ∧
    ∀ line ∈ lines.getLast?, isBlankLine line = false

/-- Whether the lines of a source can be told from what stands around them. -/
def IsReadable (kind : CellKind) (lines : List Text) : Prop :=
  match kind with
  | .code => ∀ line ∈ lines, isChunkEnd line = false
  | .markdown => FilledEnds lines ∧
      lines.IsChain (fun line next => ¬(isBlankLine line = true ∧ isBlankLine next = true)) ∧
      ∀ line ∈ lines, chunkStart? line = none ∧ regionStart? line = none
  | .raw => FilledEnds lines ∧ ∀ line ∈ lines, isRegionEnd .raw line = false
  | .other _ => False

instance (lines : List Text) : Decidable (FilledEnds lines) :=
  inferInstanceAs (Decidable ((∀ line ∈ lines.head?, isBlankLine line = false) ∧
    ∀ line ∈ lines.getLast?, isBlankLine line = false))

instance decideIsReadable : (kind : CellKind) → (lines : List Text) →
    Decidable (IsReadable kind lines)
  | .code, lines => inferInstanceAs (Decidable (∀ line ∈ lines, isChunkEnd line = false))
  | .markdown, lines => inferInstanceAs (Decidable (FilledEnds lines ∧
      lines.IsChain (fun line next => ¬(isBlankLine line = true ∧ isBlankLine next = true)) ∧
      ∀ line ∈ lines, chunkStart? line = none ∧ regionStart? line = none))
  | .raw, lines => inferInstanceAs (Decidable (FilledEnds lines ∧
      ∀ line ∈ lines, isRegionEnd .raw line = false))
  | .other _, _ => inferInstanceAs (Decidable False)

structure Readable (cell : Cell) : Prop where
  noReturn : '\r' ∉ cell.source
  isReadable : IsReadable cell.kind (lines cell.source)

/-! ### Two blank lines end a block of loose lines -/

theorem markdown_cells_append (front : List Text) {first second : Text}
    (firstBlank : isBlankLine first = true) (secondBlank : isBlankLine second = true)
    (back : List Text) :
    markdownCells (front ++ first :: second :: back) = markdownCells front ++ markdownCells back := by
  simp only [markdownCells, prose_blocks_append front firstBlank secondBlank, List.map_append]

/-- What is held in front of two blank lines is read by itself. -/
theorem cells_from_behind {first second : Text} (firstBlank : isBlankLine first = true)
    (secondBlank : isBlankLine second = true) (front held rest : List Text) :
    cellsFrom .prose (held ++ second :: first :: front) rest =
      markdownCells front.reverse ++ cellsFrom .prose held rest := by
  have apart (held : List Text) : markdownCells (held ++ second :: first :: front).reverse =
      markdownCells front.reverse ++ markdownCells held.reverse := by
    rw [← markdown_cells_append _ firstBlank secondBlank]
    simp
  induction rest generalizing held with
  | nil => exact apart held
  | cons line rest induction =>
      rw [cellsFrom, cellsFrom]
      cases opens? line with
      | none => exact induction (line :: held)
      | some opened =>
          simp only [cellsOf, apart, List.append_assoc]

theorem opens_nothing_empty : opens? [] = none := by decide

theorem cells_from_apart (front rest : List Text) :
    cellsFrom .prose front ([] :: [] :: rest) = markdownCells front.reverse ++ bodyCells rest := by
  have blank : isBlankLine [] = true := rfl
  have behind := cells_from_behind blank blank front [] rest
  have nothing : ∀ line ∈ ([[], []] : List Text), opens? line = none := by
    simp [opens_nothing_empty]
  have loose := cells_from_loose nothing front rest
  exact loose.trans behind

/-! ### Each cell by itself -/

/-- What may stand behind a cell: nothing, or two blank lines and the lines of other cells. -/
def SetApart (tail rest : List Text) : Prop :=
  tail = [] ∧ rest = [] ∨ tail = [] :: [] :: rest

theorem cells_from_set_apart {tail rest : List Text} (apart : SetApart tail rest)
    (front : List Text) :
    cellsFrom .prose front tail = markdownCells front.reverse ++ bodyCells rest := by
  rcases apart with ⟨rfl, rfl⟩ | rfl
  · exact (List.append_nil _).symm
  · exact cells_from_apart front rest

theorem cut_blocks_of_chain {lines : List Text}
    (chain : lines.IsChain fun line next => ¬(isBlankLine line = true ∧ isBlankLine next = true))
    {blankRun : Nat} (few : blankRun < 2)
    (first : blankRun = 0 ∨ ∀ line ∈ lines.head?, isBlankLine line = false) (current : List Text) :
    cutBlocks blankRun current lines = [current.reverse ++ lines] := by
  induction lines generalizing blankRun current with
  | nil => simp [cutBlocks]
  | cons line lines induction =>
      have below : ∀ next ∈ lines.head?, isBlankLine line = true → isBlankLine next = false := by
        intro next head blank
        rw [List.isChain_cons] at chain
        simpa [blank] using chain.1 next head
      have rest {blankRun : Nat} (few : blankRun < 2) first :=
        induction chain.tail few first (line :: current)
      rw [cutBlocks]
      cases present : isBlankLine line with
      | true =>
          have none : blankRun = 0 := by
            rcases first with none | filled
            · exact none
            · rw [filled line rfl] at present
              cases present
          rw [if_pos rfl, none, rest (by decide) (.inr fun next head => below next head present)]
          simp
      | false =>
          rw [if_neg (by simp), if_neg (by omega), rest (by decide) (.inl rfl)]
          simp

theorem without_outer_blanks_of_filled_ends {block : List Text} (filled : FilledEnds block) :
    withoutOuterBlanks block = block :=
  without_outer_blanks_of_filled filled.1 filled.2

theorem prose_blocks_of_block {block : List Text} (present : block ≠ [])
    (filled : FilledEnds block)
    (chain : block.IsChain fun line next => ¬(isBlankLine line = true ∧ isBlankLine next = true)) :
    proseBlocks block = [block] := by
  have one := cut_blocks_of_chain chain (show 0 < 2 by decide) (.inl rfl) []
  rw [proseBlocks, one]
  simp [without_outer_blanks_of_filled_ends filled, present]

theorem markdown_cells_of_block {block : List Text} (present : block ≠ [])
    (filled : FilledEnds block)
    (chain : block.IsChain fun line next => ¬(isBlankLine line = true ∧ isBlankLine next = true)) :
    markdownCells block = [Cell.ofLines .markdown block []] := by
  rw [markdownCells, prose_blocks_of_block present filled chain]
  rfl

theorem opens_plain_chunk : opens? plainChunkOpening = some (.chunk []) := rfl

theorem opens_raw : opens? rawOpening = some (.region .raw) := rfl

theorem cells_of_enclosed {opening closing : Text} {part : Part}
    (opened : opens? opening = some part) {inner : List Text}
    (inside : ∀ line ∈ inner, closes part line = false) (shut : closes part closing = true)
    {tail rest : List Text} (apart : SetApart tail rest) :
    bodyCells (opening :: (inner ++ closing :: tail)) = cellsOf part inner ++ bodyCells rest := by
  have enclosing := not_prose_of_opened opened
  have behind := cells_from_set_apart apart []
  rw [bodyCells, cells_from_opening opened, cells_from_inner enclosing inside,
    cells_from_closing enclosing shut, behind]
  simp [markdownCells, proseBlocks, cutBlocks, withoutOuterBlanks]

theorem opens_nothing {line : Text} (plain : chunkStart? line = none ∧ regionStart? line = none) :
    opens? line = none := by
  rw [opens?, plain.1, plain.2]

def withoutMetadata (cell : Cell) : Cell :=
  { cell with metadata := [] }

theorem cell_of_lines (cell : Cell) :
    Cell.ofLines cell.kind (lines cell.source) [] = withoutMetadata cell := by
  rw [Cell.ofLines, join_lines_of_lines]
  rfl

theorem body_cells_of_cell {cell : Cell} (readable : IsReadable cell.kind (lines cell.source))
    {tail rest : List Text} (apart : SetApart tail rest) :
    bodyCells (cellLines cell ++ tail) = withoutMetadata cell :: bodyCells rest := by
  rw [← cell_of_lines]
  cases kind : cell.kind with
  | other name =>
      rw [kind] at readable
      exact readable.elim
  | code =>
      rw [kind] at readable
      have inside : ∀ line ∈ lines cell.source, closes (.chunk []) line = false := readable
      have read := cells_of_enclosed opens_plain_chunk inside
        (show closes (.chunk []) fence = true from rfl) apart
      simpa [cellLines, kind, cellsOf] using read
  | raw =>
      rw [kind] at readable
      obtain ⟨filled, inside⟩ := readable
      have read := cells_of_enclosed opens_raw inside
        (show closes (.region .raw) rawClosing = true by decide) apart
      rw [cellsOf, without_outer_blanks_of_filled_ends filled] at read
      simpa [cellLines, kind, CellRegion.cellKind] using read
  | markdown =>
      rw [kind] at readable
      obtain ⟨filled, chain, plain⟩ := readable
      have read := cells_from_loose (fun line member => opens_nothing (plain line member)) [] tail
      rw [List.append_nil, cells_from_set_apart apart, List.reverse_reverse,
        markdown_cells_of_block (lines_ne_nil _) filled chain] at read
      simpa [cellLines, kind, bodyCells] using read

/-! ### All cells -/

theorem cell_lines_single (cell : Cell) : ∀ line ∈ cellLines cell, '\n' ∉ line := by
  have inside : ∀ line ∈ lines cell.source, '\n' ∉ line := fun line => no_newline_of_mem_lines
  have enclosed {opening closing : Text} (first : '\n' ∉ opening) (last : '\n' ∉ closing) :
      ∀ line ∈ opening :: (lines cell.source ++ [closing]), '\n' ∉ line := by
    intro line member
    simp only [List.mem_cons, List.mem_append, List.mem_nil_iff, or_false] at member
    rcases member with rfl | member | rfl
    · exact first
    · exact inside line member
    · exact last
  unfold cellLines
  split
  · exact enclosed (by decide) (by decide)
  · exact enclosed (by decide) (by decide)
  · exact inside
  · exact inside

theorem cell_lines_ne_nil (cell : Cell) : cellLines cell ≠ [] := by
  unfold cellLines
  split
  · exact List.cons_ne_nil _ _
  · exact List.cons_ne_nil _ _
  · exact lines_ne_nil _
  · exact lines_ne_nil _

theorem lines_of_cell (cell : Cell) : lines (joinLines (cellLines cell)) = cellLines cell :=
  lines_join_lines (cell_lines_ne_nil cell) (cell_lines_single cell)

theorem lines_render_cons (cell next : Cell) (cells : List Cell) :
    lines (render (cell :: next :: cells)) =
      cellLines cell ++ [] :: [] :: lines (render (next :: cells)) := by
  have split : render (cell :: next :: cells) =
      joinLines (cellLines cell) ++ '\n' :: '\n' :: '\n' :: render (next :: cells) := by
    simp [render, intercalate]
  rw [split, lines_append_newline, lines_newline, lines_newline, lines_of_cell]

theorem body_cells_render {cells : List Cell}
    (readable : ∀ cell ∈ cells, IsReadable cell.kind (lines cell.source)) :
    bodyCells (lines (render cells)) = cells.map withoutMetadata := by
  induction cells with
  | nil => rfl
  | cons cell cells induction =>
      have here := readable cell (by simp)
      cases cells with
      | nil =>
          have alone := body_cells_of_cell here (.inl ⟨rfl, rfl⟩)
          rw [List.append_nil] at alone
          rw [show render [cell] = joinLines (cellLines cell) from rfl, lines_of_cell, alone]
          rfl
      | cons next cells =>
          rw [lines_render_cons, body_cells_of_cell here (.inr rfl),
            induction fun other member => readable other (by simp [member])]
          rfl

theorem normalize_of_no_return {text : Text} (noReturn : '\r' ∉ text) :
    normalizeLineEnds text = text := by
  induction text with
  | nil => rfl
  | cons c rest induction =>
      simp only [List.mem_cons, not_or] at noReturn
      rw [AdmonitionBracketing.normalize_cons (Ne.symm noReturn.1), induction noReturn.2]

theorem join_enclosed (opening closing source : Text) :
    joinLines (opening :: (lines source ++ [closing])) =
      opening ++ '\n' :: (source ++ '\n' :: closing) := by
  rw [join_lines_cons, lines_below_append, lines_below_of_ne_nil (lines_ne_nil source),
    join_lines_of_lines]
  simp

theorem no_return_cell_lines {cell : Cell} (noReturn : '\r' ∉ cell.source) :
    '\r' ∉ joinLines (cellLines cell) := by
  have enclosed {opening closing : Text} (first : '\r' ∉ opening) (last : '\r' ∉ closing) :
      '\r' ∉ joinLines (opening :: (lines cell.source ++ [closing])) := by
    simp [join_enclosed, first, last, noReturn]
  unfold cellLines
  split
  · exact enclosed (by decide) (by decide)
  · exact enclosed (by decide) (by decide)
  · rwa [join_lines_of_lines]
  · rwa [join_lines_of_lines]

theorem no_return_render {cells : List Cell} (noReturn : ∀ cell ∈ cells, '\r' ∉ cell.source) :
    '\r' ∉ render cells := by
  induction cells with
  | nil => simp [render, intercalate]
  | cons cell cells induction =>
      have here := no_return_cell_lines (noReturn cell (by simp))
      have below := induction fun other member => noReturn other (by simp [member])
      cases cells with
      | nil => exact here
      | cons next cells =>
          simp only [render, List.map_cons, intercalate, List.mem_append, not_or] at below ⊢
          exact ⟨⟨here, by decide⟩, below⟩

theorem header_split_of_first {text : Text} (first : Header.isDelimiter (firstLine text) = false) :
    Header.split? (lines text) = none := by
  obtain ⟨others, cut⟩ := lines_first_line text
  rw [cut, Header.split?, first]
  rfl

/-- Reading undoes writing: the document of readable cells is read as these cells,
though without their metadata, for which the document has no place. -/
theorem read_rendered_cells {cells : List Cell} (readable : ∀ cell ∈ cells, Readable cell)
    (noHeader : Header.isDelimiter (firstLine (render cells)) = false) :
    ofTextIn {} (render cells) = .ok { cells := cells.map withoutMetadata } ∧
      ((∀ cell ∈ cells, cell.metadata = []) → ofTextIn {} (render cells) = .ok { cells }) := by
  have noReturn := no_return_render fun cell member => (readable cell member).noReturn
  have cut : documentLines (render cells) = lines (render cells) := by
    rw [documentLines, normalize_of_no_return noReturn]
  have read : ofTextIn {} (render cells) = .ok { cells := cells.map withoutMetadata } := by
    have standard : ofTextIn {} (render cells) = ofText (render cells) := rfl
    rw [standard, ofText, of_text_by_headless (cut ▸ header_split_of_first noHeader), cut,
      ← body_cells_render fun cell member => (readable cell member).isReadable]
  refine ⟨read, fun plain => ?_⟩
  have same : cells.map withoutMetadata = cells := by
    rw [List.map_congr_left fun cell member => ?_, List.map_id]
    rw [withoutMetadata, ← plain cell member]
    rfl
  rw [read, same]

set_option maxRecDepth 8000 in
theorem read_rendered_delimiters :
    let cells : List Cell := [
      ⟨.markdown, joinLines (["A", "", "```", "<!-- #endraw -->"].map String.toList), []⟩,
      ⟨.code, joinLines (["", "<!-- #raw -->", "```\x7bpython\x7d", ""].map String.toList), []⟩,
      ⟨.raw, joinLines (["```", "", "", "---"].map String.toList), []⟩]
    (∀ cell ∈ cells, Readable cell) ∧
      Header.isDelimiter (firstLine (render cells)) = false ∧
      ofTextIn {} (render cells) = .ok { cells } := by
  intro cells
  have readable : ∀ cell ∈ cells, Readable cell := by
    have parts : ∀ cell ∈ cells, '\r' ∉ cell.source ∧
        IsReadable cell.kind (lines cell.source) := by decide
    exact fun cell member => ⟨(parts cell member).1, (parts cell member).2⟩
  have noHeader : Header.isDelimiter (firstLine (render cells)) = false := by decide
  refine ⟨readable, noHeader, (read_rendered_cells readable noHeader).2 ?_⟩
  simp [cells]

end LessonBook.Notebook
