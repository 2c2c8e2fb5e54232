import LessonBook.Proofs.Notebook.Stretches

/-!
The code chunks of a page: where they stand, their cells, and which lines lie in
them. A line lies in a chunk exactly where reading the lines above it has left a
chunk open, and it does not end the chunk itself.
-/

namespace LessonBook

open Text

namespace Notebook

/-- A code chunk: the line it begins on, counted from 0, its opening line and the
lines of its cell. -/
structure Chunk where
  line : Nat
  opening : Text
  inner : List Text
  metadata : Metadata

namespace Chunk

def cell (chunk : Chunk) : Cell :=
  Cell.ofLines .code chunk.inner chunk.metadata

def ofStretch? (line : Nat) : Stretch → Option Chunk
  | .enclosed (.chunk metadata) opening inner _ => some ⟨line, opening, inner, metadata⟩
  | _ => none

def ofStretches (line : Nat) : List Stretch → List Chunk
  | [] => []
  | stretch :: stretches =>
      (ofStretch? line stretch).toList ++ ofStretches (line + stretch.lines.length) stretches

/-- The chunk stands in the lines of a page, and ends where they end or before a
line that ends chunks. -/
structure StandsIn (pageLines : List Text) (chunk : Chunk) : Prop where
  opens : chunkStart? chunk.opening = some chunk.metadata
  inside : ∀ line ∈ chunk.inner, isChunkEnd line = false
  stands : ∃ above below, pageLines = above ++ chunk.opening :: (chunk.inner ++ below) ∧
    above.length = chunk.line ∧ ∀ line ∈ below.head?, isChunkEnd line = true

def ofPage (page : Text) (stretches : List Stretch) : List Chunk :=
  ofStretches ((documentLines page).length - (bodyLines page).length) stretches

theorem cells_of_stretches (line : Nat) (stretches : List Stretch) :
    (ofStretches line stretches).map cell = stretches.filterMap Stretch.codeCell? := by
  induction stretches generalizing line with
  | nil => rfl
  | cons stretch stretches induction =>
      have here : (ofStretch? line stretch).map cell = stretch.codeCell? := by
        cases stretch with
        | loose => rfl
        | enclosed part => cases part <;> rfl
      rw [ofStretches, List.map_append, induction, List.filterMap_cons, ← here]
      cases ofStretch? line stretch <;> rfl

theorem start_of_opens {line : Text} {metadata : Metadata}
    (opened : opens? line = some (.chunk metadata)) : chunkStart? line = some metadata := by
  unfold opens? at opened
  split at opened
  · rename_i found
    cases opened
    exact found
  · cases opened
  · cases opened

/-- The chunks of a body stand in its lines. -/
theorem stands_of_divided {body : List Text} {stretches : List Stretch}
    (divided : Divided body stretches) (above : List Text) {chunk : Chunk}
    (member : chunk ∈ ofStretches above.length stretches) : chunk.StandsIn (above ++ body) := by
  induction divided generalizing above with
  | loose => cases member
  | @unclosed front inner opening part unopened opened inside =>
      cases part with
      | prose | region => cases member
      | chunk metadata =>
          have found : chunk = ⟨above.length + front.length, opening, inner, metadata⟩ := by
            simpa [ofStretches, ofStretch?, Stretch.lines] using member
          subst found
          exact ⟨start_of_opens opened, inside, above ++ front, [], by simp, by simp, by simp⟩
  | @closed front inner rest opening closing part stretches unopened opened inside shut _ later =>
      rw [ofStretches, ofStretches, List.mem_append, List.mem_append] at member
      rcases member with here | here | below
      · cases here
      · cases part with
        | prose | region => cases here
        | chunk metadata =>
            rw [ofStretch?, Option.toList_some, List.mem_singleton] at here
            subst here
            refine ⟨start_of_opens opened, inside, above ++ front, closing :: rest, by simp, ?_, ?_⟩
            · exact List.length_append
            · intro line head
              cases head
              exact shut
      · have length : above.length + (Stretch.loose front).lines.length +
            (Stretch.enclosed part opening inner (some closing)).lines.length =
              (above ++ front ++ opening :: (inner ++ [closing])).length := by
          simp [Stretch.lines]
          omega
        rw [length] at below
        have stands := later _ below
        have same : above ++ (front ++ opening :: (inner ++ closing :: rest)) =
            above ++ front ++ opening :: (inner ++ [closing]) ++ rest := by simp
        rw [same]
        exact stands

variable {chunk : Chunk} {page : Text}

theorem StandsIn.lines_below (stands : chunk.StandsIn (documentLines page)) : ∃ below,
    (∀ index, (documentLines page)[chunk.line + 1 + index]? = (chunk.inner ++ below)[index]?) ∧
      ∀ line ∈ below.head?, isChunkEnd line = true := by
  obtain ⟨above, below, whole, length, ends⟩ := stands.stands
  refine ⟨below, fun index => ?_, ends⟩
  rw [whole, ← length, Nat.add_assoc, List.getElem?_append_right (Nat.le_add_right _ _),
    Nat.add_sub_cancel_left, Nat.add_comm 1, List.getElem?_cons_succ]

theorem StandsIn.single (stands : chunk.StandsIn (documentLines page)) :
    ∀ line ∈ chunk.inner, '\n' ∉ line := by
  obtain ⟨above, below, whole, -⟩ := stands.stands
  intro line member
  have inside : line ∈ documentLines page := by simp [whole, member]
  exact no_newline_of_mem_lines inside

end Chunk

/-! ### The lines inside chunks -/

def Part.after (part : Part) (line : Text) : Part :=
  match part with
  | .prose => (opens? line).getD .prose
  | .chunk _ | .region _ => if closes part line then .prose else part

namespace Part

variable {part : Part}

theorem after_of_closes (enclosing : part ≠ .prose) {line : Text} (shut : closes part line = true) :
    part.after line = .prose := by
  cases part with
  | prose => exact absurd rfl enclosing
  | chunk | region => rw [after, if_pos shut]

theorem after_of_inside (enclosing : part ≠ .prose) {line : Text}
    (inside : closes part line = false) : part.after line = part := by
  cases part with
  | prose => exact absurd rfl enclosing
  | chunk | region => rw [after, inside, if_neg Bool.false_ne_true]

theorem after_all_of_loose {front : List Text} (unopened : ∀ line ∈ front, opens? line = none) :
    front.foldl after .prose = .prose := by
  induction front with
  | nil => rfl
  | cons line front induction =>
      rw [List.forall_mem_cons] at unopened
      rw [List.foldl_cons, after, unopened.1, Option.getD_none, induction unopened.2]

theorem after_all_of_inside (enclosing : part ≠ .prose) {inner : List Text}
    (inside : ∀ line ∈ inner, closes part line = false) : inner.foldl after part = part := by
  induction inner with
  | nil => rfl
  | cons line inner induction =>
      rw [List.forall_mem_cons] at inside
      rw [List.foldl_cons, after_of_inside enclosing inside.1, induction inside.2]

end Part

def Chunk.Holds (chunk : Chunk) (line : Nat) : Prop :=
  chunk.line < line ∧ line ≤ chunk.line + chunk.inner.length

/-- Above a line of the body a chunk was opened and not closed, and this line does not close it. -/
def InChunk (body : List Text) (index : Nat) : Prop :=
  ∃ metadata line, body[index]? = some line ∧
    (body.take index).foldl Part.after .prose = .chunk metadata ∧ isChunkEnd line = false

theorem in_chunk_of_loose {front : List Text} (unopened : ∀ line ∈ front, opens? line = none)
    (rest : List Text) {index : Nat} (above : index ≤ front.length) :
    ¬InChunk (front ++ rest) index := by
  rintro ⟨metadata, line, -, state, -⟩
  have inside : ∀ line ∈ front.take index, opens? line = none := fun line member =>
    unopened line (List.mem_of_mem_take member)
  rw [List.take_append_of_le_length above, Part.after_all_of_loose inside] at state
  cases state

section

variable {front inner : List Text} {opening closing : Text} {part : Part}
  (unopened : ∀ line ∈ front, opens? line = none) (opened : opens? opening = some part)
  (inside : ∀ line ∈ inner, closes part line = false)
include unopened opened inside

theorem part_inside (rest : List Text) (count : Nat) :
    ((front ++ opening :: (inner ++ rest)).take (front.length + 1 + min count inner.length)).foldl
      Part.after .prose = part := by
  have taken : (front ++ opening :: (inner ++ rest)).take
      (front.length + 1 + min count inner.length) = front ++ opening :: inner.take count := by
    rw [List.take_append, List.take_of_length_le (by omega), Nat.add_assoc, Nat.add_sub_cancel_left,
      Nat.add_comm 1, List.take_succ_cons, List.take_append_of_le_length (Nat.min_le_right _ _),
      ← List.take_eq_take_min]
  have enclosing := not_prose_of_opened opened
  have begun : Part.after .prose opening = part := by rw [Part.after, opened, Option.getD_some]
  rw [taken, List.foldl_append, Part.after_all_of_loose unopened, List.foldl_cons, begun]
  apply Part.after_all_of_inside enclosing
  exact fun line member => inside line (List.mem_of_mem_take member)

theorem in_chunk_of_inside (rest : List Text) {count : Nat} (bound : count < inner.length) :
    InChunk (front ++ opening :: (inner ++ rest)) (front.length + 1 + count) ↔
      ∃ metadata, part = .chunk metadata := by
  have state := part_inside unopened opened inside rest count
  rw [Nat.min_eq_left (Nat.le_of_lt bound)] at state
  have found : (front ++ opening :: (inner ++ rest))[front.length + 1 + count]? =
      some inner[count] := by
    rw [Nat.add_assoc, List.getElem?_append_right (Nat.le_add_right _ _), Nat.add_sub_cancel_left,
      Nat.add_comm 1, List.getElem?_cons_succ, List.getElem?_append_left bound,
      List.getElem?_eq_getElem bound]
  rw [InChunk, state, found]
  constructor
  · rintro ⟨metadata, line, -, same, -⟩
    exact ⟨metadata, same⟩
  · rintro ⟨metadata, rfl⟩
    exact ⟨metadata, _, rfl, rfl, inside _ (List.getElem_mem bound)⟩

theorem in_chunk_of_enclosed (rest : List Text) {index : Nat}
    (within : index ≤ front.length + inner.length) :
    InChunk (front ++ opening :: (inner ++ rest)) index ↔
      (∃ metadata, part = .chunk metadata) ∧ front.length < index := by
  rcases Nat.lt_or_ge front.length index with below | above
  · obtain ⟨count, rfl⟩ := Nat.exists_eq_add_of_le below
    have bound : count < inner.length := by omega
    rw [Nat.succ_eq_add_one, in_chunk_of_inside unopened opened inside rest bound,
      and_iff_left (by omega)]
  · refine iff_of_false (in_chunk_of_loose unopened _ above) ?_
    rintro ⟨-, below⟩
    omega

theorem not_in_chunk_of_closing (rest : List Text) (shut : closes part closing = true) :
    ¬InChunk (front ++ opening :: (inner ++ closing :: rest)) (front.length + 1 + inner.length) := by
  have state := part_inside unopened opened inside (closing :: rest) inner.length
  rw [Nat.min_self] at state
  have found : (front ++ opening :: (inner ++ closing :: rest))[front.length + 1 + inner.length]? =
      some closing := by
    rw [Nat.add_assoc, List.getElem?_append_right (Nat.le_add_right _ _), Nat.add_sub_cancel_left,
      Nat.add_comm 1, List.getElem?_cons_succ, List.getElem?_append_right (Nat.le_refl _),
      Nat.sub_self]
    rfl
  rw [InChunk, state, found]
  rintro ⟨metadata, line, same, rfl, open'⟩
  cases same
  rw [closes, open'] at shut
  cases shut

theorem in_chunk_behind (rest : List Text) (shut : closes part closing = true) (index : Nat) :
    InChunk (front ++ opening :: (inner ++ closing :: rest))
        (front.length + 1 + inner.length + 1 + index) ↔ InChunk rest index := by
  have state := part_inside unopened opened inside [] inner.length
  have split : front ++ opening :: (inner ++ closing :: rest) =
      front ++ opening :: (inner ++ [closing]) ++ rest := by simp
  have length : front.length + 1 + inner.length + 1 =
      (front ++ opening :: (inner ++ [closing])).length := by simp; omega
  have whole : (front ++ opening :: (inner ++ [])).take (front.length + 1 + inner.length) =
      front ++ opening :: inner := by
    rw [List.append_nil]
    exact List.take_of_length_le (by simp; omega)
  rw [Nat.min_self, whole] at state
  have behind : (front ++ opening :: (inner ++ [closing])).foldl Part.after .prose = .prose := by
    rw [← List.cons_append, ← List.append_assoc, List.foldl_append, state]
    exact Part.after_of_closes (not_prose_of_opened opened) shut
  rw [split, length, InChunk, InChunk, List.take_length_add_append, List.foldl_append, behind,
    List.getElem?_append_right (Nat.le_add_right _ _), Nat.add_sub_cancel_left]

end

namespace Chunk

theorem le_line_of_mem {start : Nat} {stretches : List Stretch} {chunk : Chunk}
    (member : chunk ∈ ofStretches start stretches) : start ≤ chunk.line := by
  induction stretches generalizing start with
  | nil => cases member
  | cons stretch stretches induction =>
      rcases List.mem_append.mp member with here | later
      · have found := Option.mem_toList.mp here
        cases stretch with
        | loose => cases found
        | enclosed part =>
            cases part with
            | prose | region => cases found
            | chunk metadata =>
                cases found
                exact Nat.le_refl _
      · exact Nat.le_trans (Nat.le_add_right _ _) (induction later)

theorem holds_of_enclosed (start index : Nat) (front inner : List Text) (opening : Text)
    (part : Part) (closing : Option Text) (stretches : List Stretch) :
    (∃ chunk ∈ ofStretches start (.loose front :: .enclosed part opening inner closing :: stretches),
        chunk.Holds (start + index)) ↔
      ((∃ metadata, part = .chunk metadata) ∧ front.length < index ∧
          index ≤ front.length + inner.length) ∨
        ∃ chunk ∈ ofStretches (start + (front.length + 1 + inner.length + closing.toList.length))
          stretches, chunk.Holds (start + index) := by
  have own : (∃ chunk ∈ (ofStretch? (start + front.length)
        (.enclosed part opening inner closing)).toList, chunk.Holds (start + index)) ↔
      (∃ metadata, part = .chunk metadata) ∧ front.length < index ∧
        index ≤ front.length + inner.length := by
    cases part with
    | prose | region => simp [ofStretch?]
    | chunk metadata =>
        simp only [ofStretch?, Option.toList_some, List.mem_singleton, exists_eq_left, Holds,
          Part.chunk.injEq, exists_eq', true_and]
        omega
  have length : start + front.length + (opening :: (inner ++ closing.toList)).length =
      start + (front.length + 1 + inner.length + closing.toList.length) := by
    simp only [List.length_cons, List.length_append]
    omega
  have none : ofStretch? start (.loose front) = none := rfl
  rw [← own, ofStretches, ofStretches, none, Option.toList_none, List.nil_append]
  simp only [Stretch.lines, length, List.mem_append, or_and_right, exists_or]

theorem holds_iff {body : List Text} {stretches : List Stretch}
    (divided : Divided body stretches) (start index : Nat) :
    (∃ chunk ∈ ofStretches start stretches, chunk.Holds (start + index)) ↔ InChunk body index := by
  induction divided generalizing start index with
  | @loose front unopened =>
      have outside : ¬InChunk front index := by
        rintro ⟨metadata, line, found, rest⟩
        have above := (List.getElem?_eq_some_iff.mp found).1
        have none := in_chunk_of_loose unopened [] (Nat.le_of_lt above)
        rw [List.append_nil] at none
        exact none ⟨metadata, line, found, rest⟩
      refine iff_of_false ?_ outside
      rintro ⟨chunk, member, -⟩
      cases member
  | @unclosed front inner opening part unopened opened inside =>
      rw [holds_of_enclosed, ofStretches]
      have none : ¬∃ chunk ∈ ([] : List Chunk), chunk.Holds (start + index) := by simp
      rw [or_iff_left none]
      by_cases within : index ≤ front.length + inner.length
      · have enclosed := in_chunk_of_enclosed unopened opened inside [] within
        rw [List.append_nil] at enclosed
        rw [enclosed, and_iff_left within]
      · refine iff_of_false (fun holds => within holds.2.2) ?_
        rintro ⟨metadata, line, found, -⟩
        have size := (List.getElem?_eq_some_iff.mp found).1
        simp only [List.length_append, List.length_cons] at size
        omega
  | @closed front inner rest opening closing part stretches unopened opened inside shut _ later =>
      rw [holds_of_enclosed]
      have below {count : Nat} : (∃ chunk ∈ ofStretches
          (start + (front.length + 1 + inner.length + (some closing).toList.length)) stretches,
          chunk.Holds (start + (front.length + 1 + inner.length + 1 + count))) ↔
            InChunk rest count := by
        have moved := later (start + (front.length + 1 + inner.length + 1)) count
        rw [Nat.add_assoc start] at moved
        exact moved
      by_cases far : front.length + 1 + inner.length + 1 ≤ index
      · obtain ⟨count, rfl⟩ := Nat.exists_eq_add_of_le far
        rw [below, in_chunk_behind unopened opened inside rest shut, or_iff_right]
        omega
      · have none : ¬∃ chunk ∈ ofStretches
            (start + (front.length + 1 + inner.length + (some closing).toList.length)) stretches,
            chunk.Holds (start + index) := by
          rintro ⟨chunk, member, lower, -⟩
          have bound := le_line_of_mem member
          simp only [Option.toList_some, List.length_singleton] at bound
          omega
        rw [or_iff_left none]
        by_cases within : index ≤ front.length + inner.length
        · rw [in_chunk_of_enclosed unopened opened inside _ within, and_iff_left within]
        · have last : index = front.length + 1 + inner.length := by omega
          rw [last]
          exact iff_of_false (fun holds => by omega)
            (not_in_chunk_of_closing unopened opened inside rest shut)

end Chunk

theorem kind_of_header_cell {header : List Text} {metadata : Metadata} {cells : List Cell}
    (read : Header.read header = .ok (metadata, cells)) : ∀ cell ∈ cells, cell.kind = .raw := by
  rw [Header.read] at read
  split at read
  · cases read
  · rename_i found readWith
    obtain ⟨value, -, written, -⟩ := Header.read_with_eq_ok.mp readWith
    split at read
    · cases read
      obtain ⟨-, rfl⟩ | ⟨text, -, -, rfl⟩ := Header.raw_cells_cases written
      · simp
      · simp
    · cases read

theorem code_cells_of_page {page : Text} {notebook : Notebook} {stretches : List Stretch}
    (accepted : ofText page = .ok notebook) (divided : Divided (bodyLines page) stretches) :
    notebook.cells.filter (fun cell => cell.kind = .code) =
      (Chunk.ofPage page stretches).map Chunk.cell := by
  obtain ⟨headerCells, split, header⟩ := of_text_eq_ok accepted
  have raw : ∀ cell ∈ headerCells, cell.kind = .raw := by
    split at header
    · rw [header]
      simp
    · exact kind_of_header_cell header
  have noCode : headerCells.filter (fun cell => cell.kind = .code) = [] := by
    rw [List.filter_eq_nil_iff]
    intro cell member
    simp [raw cell member]
  rw [split, List.filter_append, noCode, List.nil_append, body_cells_of_divided divided,
    code_cells_of_stretches, Chunk.ofPage, Chunk.cells_of_stretches]

theorem above_body (page : Text) : ∃ above, above ++ bodyLines page = documentLines page ∧
    (documentLines page).length - (bodyLines page).length = above.length := by
  obtain ⟨above, whole⟩ := body_lines_suffix page
  refine ⟨above, whole, ?_⟩
  rw [← whole, List.length_append, Nat.add_sub_cancel]

theorem Chunk.stands_of_page {page : Text} {stretches : List Stretch} {chunk : Chunk}
    (divided : Divided (bodyLines page) stretches) (member : chunk ∈ ofPage page stretches) :
    chunk.StandsIn (documentLines page) := by
  obtain ⟨above, whole, length⟩ := above_body page
  rw [ofPage, length] at member
  rw [← whole]
  exact stands_of_divided divided above member

end Notebook

end LessonBook
