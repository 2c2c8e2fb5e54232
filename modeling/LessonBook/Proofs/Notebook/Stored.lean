import LessonBook.Notebook.Writer
import LessonBook.Proofs.Json.RoundTrip
import LessonBook.Proofs.Text.Lines

/-!
Notebook files. The text of a notebook reads back as an object with the cells in
their order, and the lines of every cell give its source.
-/

namespace LessonBook.Notebook

open Text

/-! ### The lines of a source -/

/-- Pieces that make up a text, each of them up to its newline. Only the last
piece may lack one. -/
structure IsLineDivision (source : Text) (pieces : List Text) : Prop where
  whole : pieces.flatten = source
  present : ∀ piece ∈ pieces, piece ≠ []
  newline_last : ∀ piece ∈ pieces, '\n' ∉ piece.dropLast
  newline_ends : ∀ piece ∈ pieces.dropLast, piece.getLast? = some '\n'

theorem line_division_last {line : Text} (single : '\n' ∉ line) :
    IsLineDivision line ([line].filter (!·.isEmpty)) := by
  cases line with
  | nil => exact ⟨rfl, nofun, nofun, nofun⟩
  | cons c line =>
      refine ⟨by simp, by simp, ?_, by simp⟩
      simp only [List.filter_cons, List.isEmpty_cons, Bool.not_false, if_true, List.filter_nil,
        List.mem_singleton, forall_eq]
      exact fun member => single (List.mem_of_mem_dropLast member)

theorem IsLineDivision.cons {line source : Text} {pieces : List Text} (single : '\n' ∉ line)
    (division : IsLineDivision source pieces) :
    IsLineDivision (line ++ '\n' :: source) ((line ++ ['\n']) :: pieces) := by
  refine ⟨?_, ?_, ?_, ?_⟩
  · rw [List.flatten_cons, division.whole]
    simp
  · exact List.forall_mem_cons.mpr ⟨by simp, division.present⟩
  · exact List.forall_mem_cons.mpr ⟨by simpa using single, division.newline_last⟩
  · cases pieces with
    | nil => exact nofun
    | cons next pieces =>
        rw [List.dropLast_cons_cons]
        exact List.forall_mem_cons.mpr ⟨by simp, division.newline_ends⟩

theorem line_division_of_lines {pieces : List Text} (occupied : pieces ≠ [])
    (single : ∀ piece ∈ pieces, '\n' ∉ piece) :
    IsLineDivision (joinLines pieces) ((withLineEnds pieces).filter (!·.isEmpty)) := by
  induction pieces with
  | nil => exact absurd rfl occupied
  | cons line pieces induction =>
      obtain ⟨first, others⟩ := List.forall_mem_cons.mp single
      cases pieces with
      | nil => exact line_division_last first
      | cons next pieces =>
          have rest := induction (List.cons_ne_nil _ _) others
          have kept : (withLineEnds (line :: next :: pieces)).filter (!·.isEmpty) =
              (line ++ ['\n']) :: (withLineEnds (next :: pieces)).filter (!·.isEmpty) := by
            rw [withLineEnds, List.filter_cons, if_pos (by simp)]
            exact List.cons_ne_nil _ _
          have joined : joinLines (line :: next :: pieces) =
              line ++ '\n' :: joinLines (next :: pieces) := by
            simp [joinLines, intercalate]
          rw [kept, joined]
          exact rest.cons first

theorem stored_lines_divide (source : Text) : IsLineDivision source (storedLines source) := by
  have division := line_division_of_lines (lines_ne_nil source) fun _ => no_newline_of_mem_lines
  rwa [join_lines_of_lines] at division

/-! ### Cells -/

open Json (Alike IsPlain)

/-- How a cell is found in the value of a file. -/
structure StoredCell (cell : Cell) (stored : Json) : Prop where
  kind : stored.find? "cell_type" = some (.string cell.kind.name)
  metadata : ∃ read, stored.find? "metadata" = some read ∧ Alike (.object cell.metadata) read
  execution_count : stored.find? "execution_count" = if cell.kind = .code then some .null else none
  outputs : stored.find? "outputs" = if cell.kind = .code then some (.array []) else none
  source : ∃ pieces, stored.find? "source" = some (.array (pieces.map .string)) ∧
    IsLineDivision cell.source pieces

theorem plain_strings (pieces : List Text) : IsPlain (.array (pieces.map .string)) := by
  apply IsPlain.array
  intro item member
  obtain ⟨piece, -, rfl⟩ := List.mem_map.mp member
  exact .string piece

theorem code_cell_keys : ["cell_type".toList, "execution_count".toList, "metadata".toList,
    "outputs".toList, "source".toList].Nodup := by decide

theorem text_cell_keys : ["cell_type".toList, "metadata".toList, "source".toList].Nodup := by decide

theorem plain_cell {cell : Cell} (metadata : IsPlain (.object cell.metadata)) :
    IsPlain (cellToJson cell) := by
  have source := plain_strings (storedLines cell.source)
  unfold cellToJson
  split
  · refine .object code_cell_keys ?_
    simp only [List.forall_mem_cons]
    exact ⟨.string _, .null, metadata, .array nofun, source, nofun⟩
  · refine .object text_cell_keys ?_
    simp only [List.forall_mem_cons]
    exact ⟨.string _, metadata, source, nofun⟩

theorem stored_cell {cell : Cell} {stored : Json} (like : Alike (cellToJson cell) stored) :
    StoredCell cell stored := by
  have division := stored_lines_divide cell.source
  unfold cellToJson at like
  split at like
  · rename_i code
    obtain ⟨_, kind, kindLike⟩ := Json.alike_find like code_cell_keys "cell_type" rfl
    obtain ⟨_, count, countLike⟩ :=
      Json.alike_find like code_cell_keys "execution_count" rfl
    obtain ⟨_, outputs, outputsLike⟩ := Json.alike_find like code_cell_keys "outputs" rfl
    obtain ⟨_, source, sourceLike⟩ := Json.alike_find like code_cell_keys "source" rfl
    have nothing : _ = Json.array ([].map .string) := Json.alike_strings outputsLike
    cases kindLike
    cases countLike
    rw [nothing] at outputs
    rw [Json.alike_strings sourceLike] at source
    exact ⟨kind, Json.alike_find like code_cell_keys "metadata" rfl, by rw [if_pos code, count],
      by rw [if_pos code, outputs]; rfl, _, source, division⟩
  · rename_i other
    obtain ⟨_, kind, kindLike⟩ := Json.alike_find like text_cell_keys "cell_type" rfl
    obtain ⟨_, source, sourceLike⟩ := Json.alike_find like text_cell_keys "source" rfl
    cases kindLike
    rw [Json.alike_strings sourceLike] at source
    exact ⟨kind, Json.alike_find like text_cell_keys "metadata" rfl,
      by rw [if_neg other, Json.alike_find_none like "execution_count" rfl],
      by rw [if_neg other, Json.alike_find_none like "outputs" rfl], _, source, division⟩

/-! ### Notebooks -/

/-- How a notebook is found in the value of its file. -/
structure StoredNotebook (notebook : Notebook) (stored : Json) : Prop where
  metadata : ∃ read, stored.find? "metadata" = some read ∧ Alike (.object notebook.metadata) read
  format : ∃ read, stored.find? "nbformat" = some (.number read) ∧
    Binary64.same read notebook.format = true
  minor_format : ∃ read, stored.find? "nbformat_minor" = some (.number read) ∧
    Binary64.same read notebook.minorFormat = true
  cells : ∃ cells, stored.find? "cells" = some (.array cells) ∧
    List.Forall₂ StoredCell notebook.cells cells

theorem notebook_keys : ["cells".toList, "metadata".toList, "nbformat".toList,
    "nbformat_minor".toList].Nodup := by decide

theorem stored_notebook {notebook : Notebook} {stored : Json}
    (like : Alike notebook.toJson stored) : StoredNotebook notebook stored := by
  obtain ⟨_, format, formatLike⟩ := Json.alike_find like notebook_keys "nbformat" rfl
  obtain ⟨_, minor, minorLike⟩ := Json.alike_find like notebook_keys "nbformat_minor" rfl
  obtain ⟨_, cells, cellsLike⟩ := Json.alike_find like notebook_keys "cells" rfl
  cases formatLike with
  | number formatEqual =>
      cases minorLike with
      | number minorEqual =>
          cases cellsLike with
          | array each =>
              rw [List.forall₂_map_left_iff] at each
              exact ⟨Json.alike_find like notebook_keys "metadata" rfl, ⟨_, format, formatEqual⟩,
                ⟨_, minor, minorEqual⟩, _, cells, each.imp fun _ _ => stored_cell⟩

theorem plain_notebook {notebook : Notebook} (metadata : IsPlain (.object notebook.metadata))
    (cells : ∀ cell ∈ notebook.cells, IsPlain (.object cell.metadata))
    (format : notebook.format.IsStandard) (minorFormat : notebook.minorFormat.IsStandard) :
    IsPlain notebook.toJson := by
  refine .object notebook_keys ?_
  simp only [List.forall_mem_cons]
  refine ⟨.array ?_, metadata, .number format, .number minorFormat, nofun⟩
  intro item member
  obtain ⟨cell, present, rfl⟩ := List.mem_map.mp member
  exact plain_cell (cells cell present)

/-- The text of a notebook is a JSON text, and everything the notebook holds is
found in its value: the cells in their order with their sources line by line, and
all metadata up to the order of keys. -/
theorem notebook_text_reads_back {notebook : Notebook}
    (metadata : IsPlain (.object notebook.metadata))
    (cells : ∀ cell ∈ notebook.cells, IsPlain (.object cell.metadata))
    (format : notebook.format.IsStandard) (minorFormat : notebook.minorFormat.IsStandard) :
    ∃ stored, Json.ofText? notebook.toText = some stored ∧ StoredNotebook notebook stored := by
  have blank : ∀ c ∈ ['\n'], Json.isJsonBlank c = true := List.forall_mem_singleton.mpr rfl
  obtain ⟨stored, like, read⟩ :=
    Json.of_text_pretty (plain_notebook metadata cells format minorFormat) 1 ['\n'] blank
  exact ⟨stored, read, stored_notebook like⟩

theorem notebook_text_reads_back_nested :
    let notebook : Notebook := {
      cells := [
        ⟨.code, "\nx = \"\\\"\n\n".toList,
          [("tags".toList, .array [.string ['\x01', 'é', '"'], .null])]⟩,
        ⟨.markdown, [], []⟩,
        ⟨.raw, ['\n'], []⟩],
      metadata := [("b".toList, .object [("10".toList, .number (.ofFraction true 70 1)),
        ("2".toList, .object []), ([], .string [])]), ("1".toList, .bool true)] }
    IsPlain (.object notebook.metadata) ∧
      ∃ stored, Json.ofText? notebook.toText = some stored ∧ StoredNotebook notebook stored := by
  intro notebook
  have four : Binary64.IsStandard (.ofNat 4) := Binary64.standard_of_integer false (by decide)
  have empty : IsPlain (.object []) := .object .nil nofun
  have nested : IsPlain (.object [("10".toList, .number (.ofFraction true 70 1)),
      ("2".toList, .object []), ([], .string [])]) := by
    refine .object (show ["10".toList, "2".toList, []].Nodup by decide) ?_
    simp only [List.forall_mem_cons]
    exact ⟨Json.plain_integer true (by decide), empty, .string [], nofun⟩
  have metadata : IsPlain (.object notebook.metadata) := by
    refine .object (show ["b".toList, "1".toList].Nodup by decide) ?_
    simp only [notebook, List.forall_mem_cons]
    exact ⟨nested, .bool true, nofun⟩
  have tags : IsPlain (.object
      [("tags".toList, .array [.string ['\x01', 'é', '"'], .null])]) := by
    refine .object (show ["tags".toList].Nodup by decide) ?_
    simp only [List.forall_mem_cons]
    refine ⟨.array ?_, nofun⟩
    simp only [List.forall_mem_cons]
    exact ⟨.string _, .null, nofun⟩
  have cells : ∀ cell ∈ notebook.cells, IsPlain (.object cell.metadata) := by
    simp only [notebook, List.forall_mem_cons]
    exact ⟨tags, empty, empty, nofun⟩
  exact ⟨metadata, notebook_text_reads_back metadata cells four four⟩

end LessonBook.Notebook
