import LessonBook.Proofs.Notebook.Prose
import LessonBook.Proofs.Text.Lines

/-!
A body as a row of stretches: loose lines, and chunks and regions between their
opening and closing lines. There is one way to divide a body like that, and its
cells hold what the stretches hold.
-/

namespace LessonBook.Notebook

open Text

/-- Loose lines, or the lines of a chunk or region. Only the end of the body
leaves a chunk or region without a closing line. -/
inductive Stretch where
  | loose (lines : List Text)
  | enclosed (part : Part) (opening : Text) (inner : List Text) (closing : Option Text)

namespace Stretch

def lines : Stretch → List Text
  | loose lines => lines
  | enclosed _ opening inner closing => opening :: (inner ++ closing.toList)

def inner : Stretch → List Text
  | loose lines => lines
  | enclosed _ _ inner _ => inner

def cells : Stretch → List Cell
  | loose lines => markdownCells lines
  | enclosed part _ inner _ => cellsOf part inner

def codeCell? : Stretch → Option Cell
  | enclosed (.chunk metadata) _ inner _ => some (Cell.ofLines .code inner metadata)
  | _ => none

end Stretch

/-- How a body divides. A loose line opens nothing, and a chunk or region reaches
to the first line that closes it. -/
inductive Divided : List Text → List Stretch → Prop where
  | loose {lines : List Text} (unopened : ∀ line ∈ lines, opens? line = none) :
      Divided lines [.loose lines]
  | unclosed {front inner : List Text} {opening : Text} {part : Part}
      (unopened : ∀ line ∈ front, opens? line = none) (opened : opens? opening = some part)
      (inside : ∀ line ∈ inner, closes part line = false) :
      Divided (front ++ opening :: inner) [.loose front, .enclosed part opening inner none]
  | closed {front inner rest : List Text} {opening closing : Text} {part : Part}
      {stretches : List Stretch} (unopened : ∀ line ∈ front, opens? line = none)
      (opened : opens? opening = some part) (inside : ∀ line ∈ inner, closes part line = false)
      (shut : closes part closing = true) (behind : Divided rest stretches) :
      Divided (front ++ opening :: (inner ++ closing :: rest))
        (.loose front :: .enclosed part opening inner (some closing) :: stretches)

theorem split_at_first {Line : Type} (test : Line → Bool) (lines : List Line) :
    (∀ line ∈ lines, test line = true) ∨
      ∃ front line rest, lines = front ++ line :: rest ∧ (∀ other ∈ front, test other = true) ∧
        test line = false := by
  induction lines with
  | nil => exact .inl (by simp)
  | cons first lines induction =>
      cases passes : test first with
      | false => exact .inr ⟨[], first, lines, rfl, by simp, passes⟩
      | true =>
          rcases induction with all | ⟨front, line, rest, rfl, before, fails⟩
          · exact .inl (by simpa [passes] using all)
          · exact .inr ⟨first :: front, line, rest, rfl, by simpa [passes] using before, fails⟩

theorem first_unique {Line : Type} (test : Line → Bool) {front front' rest rest' : List Line}
    {line line' : Line} (same : front ++ line :: rest = front' ++ line' :: rest')
    (before : ∀ other ∈ front, test other = true) (fails : test line = false)
    (before' : ∀ other ∈ front', test other = true) (fails' : test line' = false) :
    front = front' ∧ line = line' ∧ rest = rest' := by
  have taken := congrArg (List.takeWhile test) same
  rw [List.takeWhile_append_of_pos before, List.takeWhile_append_of_pos before'] at taken
  simp only [List.takeWhile_cons, fails, fails', if_false, Bool.false_eq_true, List.append_nil] at taken
  subst taken
  have behind := List.append_cancel_left same
  rw [List.cons.injEq] at behind
  exact ⟨rfl, behind⟩

theorem divided_exists (lines : List Text) : ∃ stretches, Divided lines stretches := by
  induction length : lines.length using Nat.strong_induction_on generalizing lines with
  | _ count shorter =>
  subst length
  rcases split_at_first (fun line => (opens? line).isNone) lines with
    all | ⟨front, opening, behind, rfl, unopened, opened⟩
  · exact ⟨_, .loose fun line member => by simpa using all line member⟩
  · have unopened : ∀ line ∈ front, opens? line = none := fun line member => by
      simpa using unopened line member
    obtain ⟨part, opened⟩ : ∃ part, opens? opening = some part := by
      rw [← Option.isSome_iff_exists]
      simpa using opened
    rcases split_at_first (fun line => !closes part line) behind with
      all | ⟨inner, closing, rest, rfl, inside, shut⟩
    · exact ⟨_, .unclosed unopened opened fun line member => by simpa using all line member⟩
    · have less : rest.length < (front ++ opening :: (inner ++ closing :: rest)).length := by
        simp only [List.length_append, List.length_cons]
        omega
      obtain ⟨stretches, divided⟩ := shorter rest.length less rest rfl
      exact ⟨_, .closed unopened opened (fun line member => by simpa using inside line member)
        (by simpa using shut) divided⟩

namespace Divided

variable {body : List Text} {stretches : List Stretch}

theorem join (divided : Divided body stretches) : body = stretches.flatMap Stretch.lines := by
  induction divided with
  | loose => simp [Stretch.lines]
  | unclosed => simp [Stretch.lines]
  | closed _ _ _ _ _ induction => simp [Stretch.lines, ← induction]

theorem first_opening {front front' behind behind' : List Text} {opening opening' : Text}
    {part part' : Part} (same : front ++ opening :: behind = front' ++ opening' :: behind')
    (unopened : ∀ line ∈ front, opens? line = none) (opened : opens? opening = some part)
    (unopened' : ∀ line ∈ front', opens? line = none) (opened' : opens? opening' = some part') :
    front = front' ∧ opening = opening' ∧ part = part' ∧ behind = behind' := by
  obtain ⟨sameFront, sameOpening, sameBehind⟩ :=
    first_unique (fun line => (opens? line).isNone) same
      (fun line member => by simp [unopened line member]) (by simp [opened])
      (fun line member => by simp [unopened' line member]) (by simp [opened'])
  rw [sameOpening, opened', Option.some.injEq] at opened
  exact ⟨sameFront, sameOpening, opened.symm, sameBehind⟩

theorem not_loose {lines front behind : List Text} {opening : Text} {part : Part}
    (unopened : ∀ line ∈ lines, opens? line = none)
    (same : lines = front ++ opening :: behind) (opened : opens? opening = some part) : False := by
  rw [unopened opening (by simp [same])] at opened
  cases opened

/-- A body divides in one way only. -/
theorem unique (divided : Divided body stretches) {others : List Stretch}
    (divided' : Divided body others) : others = stretches := by
  induction divided generalizing others with
  | @loose lines unopened =>
      cases divided' with
      | loose => rfl
      | unclosed _ opened => exact (not_loose unopened rfl opened).elim
      | closed _ opened => exact (not_loose unopened rfl opened).elim
  | @unclosed front inner opening part unopened opened inside =>
      generalize same : front ++ opening :: inner = body at divided'
      cases divided' with
      | loose unopened' => exact (not_loose unopened' same.symm opened).elim
      | unclosed unopened' opened' =>
          obtain ⟨rfl, rfl, rfl, rfl⟩ := first_opening same unopened opened unopened' opened'
          rfl
      | closed unopened' opened' _ shut =>
          obtain ⟨rfl, rfl, rfl, rfl⟩ := first_opening same unopened opened unopened' opened'
          rw [inside _ (by simp)] at shut
          cases shut
  | @closed front inner rest opening closing part stretches unopened opened inside shut _ induction =>
      generalize same : front ++ opening :: (inner ++ closing :: rest) = body at divided'
      cases divided' with
      | loose unopened' => exact (not_loose unopened' same.symm opened).elim
      | unclosed unopened' opened' inside' =>
          obtain ⟨rfl, rfl, rfl, rfl⟩ := first_opening same unopened opened unopened' opened'
          rw [inside' _ (by simp)] at shut
          cases shut
      | closed unopened' opened' inside' shut' divided' =>
          obtain ⟨rfl, rfl, rfl, behind⟩ := first_opening same unopened opened unopened' opened'
          obtain ⟨rfl, rfl, rfl⟩ := first_unique (fun line => !closes part line) behind
            (fun line member => by simp [inside line member]) (by simp [shut])
            (fun line member => by simp [inside' line member]) (by simp [shut'])
          rw [induction divided']

end Divided

/-! ### Reading follows the division -/

theorem cells_from_loose {front : List Text} (unopened : ∀ line ∈ front, opens? line = none)
    (held rest : List Text) :
    cellsFrom .prose held (front ++ rest) = cellsFrom .prose (front.reverse ++ held) rest := by
  induction front generalizing held with
  | nil => rfl
  | cons line front induction =>
      rw [List.cons_append, cellsFrom, unopened line (by simp)]
      simp only
      rw [induction fun other member => unopened other (by simp [member])]
      simp

theorem cells_from_opening {opening : Text} {part : Part} (opened : opens? opening = some part)
    (held rest : List Text) : cellsFrom .prose held (opening :: rest) =
      markdownCells held.reverse ++ cellsFrom part [] rest := by
  rw [cellsFrom, opened]
  rfl

theorem not_prose_of_opened {line : Text} {part : Part} (opened : opens? line = some part) :
    part ≠ .prose := by
  rintro rfl
  unfold opens? at opened
  split at opened <;> cases opened

theorem cells_from_inner {part : Part} (enclosing : part ≠ .prose) {inner : List Text}
    (inside : ∀ line ∈ inner, closes part line = false) (held rest : List Text) :
    cellsFrom part held (inner ++ rest) = cellsFrom part (inner.reverse ++ held) rest := by
  induction inner generalizing held with
  | nil => rfl
  | cons line inner induction =>
      have below := induction (fun other member => inside other (by simp [member])) (line :: held)
      have unclosed := inside line (by simp)
      cases part with
      | prose => exact absurd rfl enclosing
      | chunk metadata => simpa [cellsFrom, unclosed] using below
      | region kind => simpa [cellsFrom, unclosed] using below

theorem cells_from_closing {part : Part} (enclosing : part ≠ .prose) {closing : Text}
    (shut : closes part closing = true) (held rest : List Text) :
    cellsFrom part held (closing :: rest) = cellsOf part held.reverse ++ cellsFrom .prose [] rest := by
  cases part with
  | prose => exact absurd rfl enclosing
  | chunk metadata => simp [cellsFrom, shut]
  | region kind => simp [cellsFrom, shut]

theorem body_cells_of_divided {body : List Text} {stretches : List Stretch}
    (divided : Divided body stretches) : bodyCells body = stretches.flatMap Stretch.cells := by
  unfold bodyCells
  induction divided with
  | @loose lines unopened =>
      have read := cells_from_loose unopened [] []
      rw [List.append_nil] at read
      simp [read, cellsFrom, cellsOf, Stretch.cells]
  | @unclosed front inner opening part unopened opened inside =>
      have read := cells_from_inner (not_prose_of_opened opened) inside [] []
      rw [List.append_nil] at read
      rw [cells_from_loose unopened, cells_from_opening opened, read]
      simp [cellsFrom, Stretch.cells]
  | closed unopened opened inside shut _ induction =>
      rw [cells_from_loose unopened, cells_from_opening opened,
        cells_from_inner (not_prose_of_opened opened) inside,
        cells_from_closing (not_prose_of_opened opened) shut, induction]
      simp [Stretch.cells]

/-! ### What the cells hold -/

def filledLines (cells : List Cell) : List Text :=
  filled (cells.flatMap fun cell => lines cell.source)

theorem filled_lines_of_lines (kind : CellKind) {block : List Text}
    (single : ∀ line ∈ block, '\n' ∉ line) (metadata : Metadata) :
    filledLines [Cell.ofLines kind block metadata] = filled block := by
  cases block with
  | nil =>
      have blank : isBlankLine [] = true := rfl
      simp [filledLines, Cell.ofLines, joinLines, intercalate, lines_nil, filled, blank]
  | cons line block =>
      simp [filledLines, Cell.ofLines, lines_join_lines (List.cons_ne_nil line block) single]

theorem filled_lines_append (front back : List Cell) :
    filledLines (front ++ back) = filledLines front ++ filledLines back := by
  rw [filledLines, List.flatMap_append, filled_append]
  rfl

theorem mem_of_mem_without_outer_blanks {line : Text} {lines : List Text}
    (member : line ∈ withoutOuterBlanks lines) : line ∈ lines := by
  have inside := (List.dropWhile_suffix isBlankLine).mem (List.mem_reverse.mp member)
  exact (List.dropWhile_suffix isBlankLine).mem (List.mem_reverse.mp inside)

theorem mem_of_mem_prose_blocks {line : Text} {lines block : List Text}
    (inBlock : line ∈ block) (member : block ∈ proseBlocks lines) : line ∈ lines := by
  obtain ⟨whole, cut, rfl⟩ := List.mem_map.mp (List.mem_filter.mp member).1
  have inside : line ∈ (cutBlocks 0 [] lines).flatten :=
    List.mem_flatten.mpr ⟨whole, cut, mem_of_mem_without_outer_blanks inBlock⟩
  rwa [flatten_cut_blocks] at inside

theorem filled_lines_markdown {lines : List Text} (single : ∀ line ∈ lines, '\n' ∉ line) :
    filledLines (markdownCells lines) = filled lines := by
  have blocks (rest : List (List Text)) (inside : ∀ block ∈ rest, block ∈ proseBlocks lines) :
      filledLines (rest.map fun block => Cell.ofLines .markdown block []) = filled rest.flatten := by
    induction rest with
    | nil => rfl
    | cons block rest induction =>
        have blockSingle : ∀ line ∈ block, '\n' ∉ line := fun line member =>
          single line (mem_of_mem_prose_blocks member (inside block (by simp)))
        rw [List.map_cons, ← List.singleton_append, filled_lines_append,
          filled_lines_of_lines .markdown blockSingle,
          induction fun other member => inside other (by simp [member]),
          List.flatten_cons, filled_append]
  rw [markdownCells, blocks _ fun _ member => member, filled_prose_blocks]

theorem filled_lines_of_stretch {stretch : Stretch} (single : ∀ line ∈ stretch.inner, '\n' ∉ line) :
    filledLines stretch.cells = filled stretch.inner := by
  cases stretch with
  | loose lines => exact filled_lines_markdown single
  | enclosed part opening inner closing =>
      cases part with
      | prose => exact filled_lines_markdown single
      | chunk metadata => exact filled_lines_of_lines .code single metadata
      | region kind =>
          have inside : ∀ line ∈ withoutOuterBlanks inner, '\n' ∉ line := fun line member =>
            single line (mem_of_mem_without_outer_blanks member)
          exact (filled_lines_of_lines kind.cellKind inside []).trans
            (filled_without_outer_blanks inner)

theorem inner_subset_lines (stretch : Stretch) : ∀ line ∈ stretch.inner, line ∈ stretch.lines := by
  cases stretch with
  | loose lines => exact fun line member => member
  | enclosed part opening inner closing =>
      intro line member
      exact List.mem_cons_of_mem _ (List.mem_append_left _ member)

theorem filled_lines_of_stretches {stretches : List Stretch}
    (single : ∀ line ∈ stretches.flatMap Stretch.lines, '\n' ∉ line) :
    filledLines (stretches.flatMap Stretch.cells) = filled (stretches.flatMap Stretch.inner) := by
  induction stretches with
  | nil => rfl
  | cons stretch stretches induction =>
      rw [List.flatMap_cons] at single
      have here := filled_lines_of_stretch fun line member =>
        single line (List.mem_append_left _ (inner_subset_lines stretch line member))
      rw [List.flatMap_cons, List.flatMap_cons, filled_lines_append, filled_append, here,
        induction fun line member => single line (List.mem_append_right _ member)]

theorem kind_of_markdown {lines : List Text} {cell : Cell} (member : cell ∈ markdownCells lines) :
    cell.kind ≠ .code := by
  obtain ⟨block, -, rfl⟩ := List.mem_map.mp member
  exact CellKind.noConfusion

theorem code_cells_of_stretch (stretch : Stretch) :
    stretch.cells.filter (fun cell => cell.kind = .code) = stretch.codeCell?.toList := by
  have loose (lines : List Text) :
      (markdownCells lines).filter (fun cell => cell.kind = .code) = [] := by
    rw [List.filter_eq_nil_iff]
    intro cell member
    simpa using kind_of_markdown member
  cases stretch with
  | loose lines => exact loose lines
  | enclosed part opening inner closing =>
      cases part with
      | prose => exact loose inner
      | chunk metadata => rfl
      | region kind => cases kind <;> rfl

theorem code_cells_of_stretches (stretches : List Stretch) :
    (stretches.flatMap Stretch.cells).filter (fun cell => cell.kind = .code) =
      stretches.filterMap Stretch.codeCell? := by
  induction stretches with
  | nil => rfl
  | cons stretch stretches induction =>
      rw [List.flatMap_cons, List.filter_append, code_cells_of_stretch, induction]
      cases read : stretch.codeCell? <;> simp [read]

def bodyLines (text : Text) : List Text :=
  match Header.split? (documentLines text) with
  | none => documentLines text
  | some (_, body) => body

theorem body_lines_suffix (text : Text) : bodyLines text <:+ documentLines text := by
  unfold bodyLines
  split
  · exact List.suffix_refl _
  · rename_i header body split
    unfold Header.split? at split
    split at split
    · rename_i first rest cut
      rw [Option.ite_none_right_eq_some, Option.some.injEq, Prod.mk.injEq] at split
      obtain ⟨-, -, rfl⟩ := split
      rw [cut]
      exact ((List.drop_suffix 1 _).trans (List.dropWhile_suffix _)).trans (List.suffix_cons first rest)
    · cases split

theorem body_lines_single (text : Text) : ∀ line ∈ bodyLines text, '\n' ∉ line := by
  intro line member
  have whole : line ∈ documentLines text := (body_lines_suffix text).mem member
  exact no_newline_of_mem_lines whole

theorem of_text_in_eq_ok {format : SourceFormat} {text : Text} {notebook : Notebook}
    (read : ofTextIn format text = .ok notebook) : ofText text = .ok notebook := by
  have steps : ofTextIn format text =
      if format.name ≠ SourceFormat.name {} then .error (.unsupportedFormat format.name)
      else if lower format.extension ≠ lower (SourceFormat.extension {}) then
        .error (.unsupportedExtension format.name format.extension)
      else ofText text := rfl
  rw [steps] at read
  split at read
  · cases read
  · split at read
    · cases read
    · exact read

theorem of_text_eq_ok {text : Text} {notebook : Notebook} (read : ofText text = .ok notebook) :
    ∃ headerCells, notebook.cells = headerCells ++ bodyCells (bodyLines text) ∧
      match Header.split? (documentLines text) with
      | none => headerCells = []
      | some (header, _) => Header.read header = .ok (notebook.metadata, headerCells) := by
  rw [ofText] at read
  unfold bodyLines
  cases split : Header.split? (documentLines text) with
  | none =>
      rw [of_text_by_headless split, Except.ok.injEq] at read
      exact ⟨[], by rw [← read]; rfl, rfl⟩
  | some parts =>
      obtain ⟨header, body⟩ := parts
      rw [of_text_by_header split] at read
      cases headerRead : Header.read header with
      | error fault =>
          rw [headerRead] at read
          cases read
      | ok found =>
          obtain ⟨metadata, headerCells⟩ := found
          rw [headerRead] at read
          cases read
          exact ⟨headerCells, rfl, headerRead⟩

/-- How the cells of a notebook account for a document: those of its header come
first, the others hold every line of its body that is not blank, in order and but
for the opening and closing lines of chunks and regions, and each chunk is a code
cell that holds its lines as they stand. -/
structure Accounts (text : Text) (notebook : Notebook) (headerCells cells : List Cell)
    (stretches : List Stretch) : Prop where
  split : notebook.cells = headerCells ++ cells
  header : match Header.split? (documentLines text) with
    | none => headerCells = []
    | some (header, _) => Header.read header = .ok (notebook.metadata, headerCells)
  divided : Divided (bodyLines text) stretches
  only : ∀ others, Divided (bodyLines text) others → others = stretches
  whole : bodyLines text = stretches.flatMap Stretch.lines
  filled : filledLines cells = filled (stretches.flatMap Stretch.inner)
  code : cells.filter (fun cell => cell.kind = .code) = stretches.filterMap Stretch.codeCell?

/-- Reading a document loses, repeats and moves no line of its body. -/
theorem notebook_keeps_body_lines {format : SourceFormat} {text : Text} {notebook : Notebook}
    (accepted : ofTextIn format text = .ok notebook) :
    ∃ headerCells cells stretches, Accounts text notebook headerCells cells stretches := by
  obtain ⟨headerCells, split, header⟩ := of_text_eq_ok (of_text_in_eq_ok accepted)
  obtain ⟨stretches, divided⟩ := divided_exists (bodyLines text)
  have single := body_lines_single text
  rw [divided.join] at single
  refine ⟨headerCells, bodyCells (bodyLines text), stretches, ⟨split, header, divided,
    fun others => divided.unique, divided.join, ?_, ?_⟩⟩
  · rw [body_cells_of_divided divided, filled_lines_of_stretches single]
  · rw [body_cells_of_divided divided, code_cells_of_stretches]

set_option maxRecDepth 8000 in
theorem notebook_keeps_nested_delimiters :
    let page := joinLines (["A", "", "", "```\x7br, echo=F\x7d", "<!-- #raw -->", "", "``` ",
      "<!-- #region -->", "```\x7bpython\x7d", "B", "<!-- #endregion -->", "C",
      "```\x7bpython\x7d", "D"].map String.toList)
    ∃ notebook headerCells cells stretches, ofTextIn {} page = .ok notebook ∧
      Accounts page notebook headerCells cells stretches := by
  intro page
  have accepted : ofTextIn {} page = .ok { cells := bodyCells (documentLines page) } := by rfl
  obtain ⟨headerCells, cells, stretches, accounts⟩ := notebook_keeps_body_lines accepted
  exact ⟨_, headerCells, cells, stretches, accepted, accounts⟩

end LessonBook.Notebook
