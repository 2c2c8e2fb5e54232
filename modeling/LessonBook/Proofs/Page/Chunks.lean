import LessonBook.Proofs.Markup.FrontMatter
import LessonBook.Proofs.Markup.Position
import LessonBook.Proofs.Notebook.Chunks
import LessonBook.Proofs.Text.Trim

/-!
The code chunks of a page are found twice: line by line, when the page is read as
a notebook, and among its directives, when it is read as markup. A chunk is a
directive where reading comes to its lines, a language is named in its braces,
and none of its lines ends the directive before the chunk ends.
-/

namespace LessonBook

open Text Recognizer BlockReader

namespace Text

theorem not_blank_of_alpha {c : Char} (letter : c.isAlpha = true) : isBlank c = false := by
  have value : c.toNat = c.val.toNat := rfl
  have ranges : c.isAlpha = (decide ('A'.val ≤ c.val ∧ c.val ≤ 'Z'.val) ||
      (decide ('a'.val ≤ c.val) && decide (c.val ≤ 'z'.val))) := rfl
  simp only [ranges, Bool.or_eq_true, Bool.and_eq_true, decide_eq_true_eq,
    UInt32.le_iff_toNat_le] at letter
  have bounds : 'A'.val.toNat = 65 ∧ 'Z'.val.toNat = 90 ∧ 'a'.val.toNat = 97 ∧
      'z'.val.toNat = 122 := by decide
  simp only [isBlank, Bool.or_eq_false_iff, Bool.and_eq_false_iff, decide_eq_false_iff_not,
    beq_eq_false_iff_ne]
  omega

end Text

theorem first_word_trim {letter : Char} {name : Text} (present : isBlank letter = false) :
    firstWord (trim (letter :: name)) = firstWord (letter :: name) := by
  have start : trim (letter :: name) = trimEnd (letter :: name) := by
    rw [trim, trimStart, List.dropWhile_cons_of_neg (by simp [present])]
  obtain ⟨back, whole, blank⟩ := drop_end_while_split isBlank (letter :: name)
  have stop : back.takeWhile (fun c => !isBlank c && c != ',') = [] := by
    cases back with
    | nil => rfl
    | cons c back => simp [blank c List.mem_cons_self]
  rw [start, firstWord, firstWord]
  conv => rhs; rw [← whole]
  rw [List.takeWhile_append, stop, List.append_nil]
  split
  · rename_i all
    exact (List.takeWhile_prefix _).eq_of_length all
  · rfl

/-- Joined lines are equal if the lines are, and for one empty line and none. -/
theorem Text.join_lines_eq_iff {pieces others : List Text} (single : ∀ piece ∈ pieces, '\n' ∉ piece)
    (single' : ∀ piece ∈ others, '\n' ∉ piece) : joinLines pieces = joinLines others ↔
      pieces = others ∨ (pieces = [] ∧ others = [[]]) ∨ (pieces = [[]] ∧ others = []) := by
  have empty : joinLines [] = [] := rfl
  constructor
  · intro same
    have cut := congrArg lines same
    cases pieces with
    | nil =>
        cases others with
        | nil => exact .inl rfl
        | cons first others =>
            rw [empty, lines_nil, lines_join_lines (List.cons_ne_nil first others) single'] at cut
            exact .inr (.inl ⟨rfl, cut.symm⟩)
    | cons piece pieces =>
        rw [lines_join_lines (List.cons_ne_nil piece pieces) single] at cut
        cases others with
        | nil => exact .inr (.inr ⟨cut, rfl⟩)
        | cons first others =>
            rw [lines_join_lines (List.cons_ne_nil first others) single'] at cut
            exact .inl cut
  · rintro (rfl | ⟨rfl, rfl⟩ | ⟨rfl, rfl⟩) <;> rfl

namespace Position

/-- Behind a fence of three backticks a directive is read if there is one. -/
theorem reads_of_fence {position : Position} {directive : Directive} {below rest : Text}
    (begins : position.next?.isSome = true) (fenced : position.text = Notebook.fence ++ below)
    (read : Directive.read? true position.text = some (directive, rest)) :
    position.Reads directive := by
  obtain ⟨⟨next, left⟩, found⟩ := Option.isSome_iff_exists.mp begins
  obtain ⟨fuel, -, -, step⟩ := next_eq_some found
  have image : ImageElement.read? position.text = none := by rw [fenced]; rfl
  have fields : FieldList.read? position.text = none := by rw [fenced]; rfl
  have definitions : DefinitionList.read? position.text = none := by rw [fenced]; rfl
  have environment : Formula.environment? atLineEnd position.text = none := by rw [fenced]; rfl
  have dollar : Formula.dollar? atLineEnd position.text = none := by rw [fenced]; rfl
  have enabled : Extension.all.contains .colonFence = true := rfl
  rw [steps_eq, earlySteps, List.cons_append, first_step_skip (by simp [when, leafStep, image]),
    List.cons_append, first_step_skip (by simp [when, leafStep, fields]), List.cons_append,
    first_step_skip (by simp [when, leafStep, definitions]), List.cons_append,
    first_step_skip (by simp [when, leafStep, environment]), List.cons_append,
    first_step_skip (by simp [when, leafStep, dollar]), List.cons_append, enabled, firstStep] at step
  split at step
  · rename_i result taken
    cases step
    obtain ⟨other, read', rfl⟩ := directive_step_eq_some taken
    rw [read, Option.some.injEq, Prod.mk.injEq] at read'
    obtain ⟨rfl, rfl⟩ := read'
    exact ⟨_, _, _, _, found, rfl⟩
  · rename_i refused
    simp only [directiveStep, read, Option.bind_eq_bind, Option.bind_some] at refused
    split at refused <;> cases refused

end Position

def Node.isChunk : Node → Bool
  | .directive name _ _ _ => chunkLanguages.contains (lower (firstWord name))
  | .admonition .. | .block .. => false

namespace Notebook

namespace Chunk

def braced (chunk : Chunk) : Text :=
  (chunk.opening.drop 4).takeWhile (· != '\x7d')

/-! ### The opening line -/

theorem start_eq_some {line : Text} {metadata : Metadata}
    (started : chunkStart? line = some metadata) : ∃ letter name behind,
      line = fence ++ '\x7b' :: (letter :: name ++ '\x7d' :: behind) ∧ letter.isAlpha = true ∧
        '\x7d' ∉ letter :: name := by
  simp only [chunkStart?, Option.bind_eq_bind, Option.bind_eq_some_iff] at started
  obtain ⟨header, fenced, afterLetter, first, behind, closed, -⟩ := started
  rw [word_eq_some_iff] at fenced
  cases header with
  | nil => cases first
  | cons letter rest =>
      have isLetter : letter.isAlpha = true ∧ rest = afterLetter := by
        simpa [Recognizer.one] using first
      obtain ⟨isLetter, rfl⟩ := isLetter
      have left : '\x7d' :: behind <:+ rest := by
        rw [← char_eq_some_iff.mp closed]
        exact (List.dropWhile_suffix _).trans (List.dropWhile_suffix _)
      obtain ⟨name, after, rfl, unbraced⟩ := List.eq_append_cons_of_mem (left.mem List.mem_cons_self)
      refine ⟨letter, name, after, ?_, isLetter, ?_⟩
      · rw [fenced]
        simp
      · rw [List.mem_cons, not_or]
        refine ⟨?_, unbraced⟩
        rintro rfl
        cases isLetter

/-- A chunk opens a directive unless there is another brace between its braces. -/
theorem opening_of_start {name behind : Text} (present : name ≠ []) (unbraced : '\x7d' ∉ name)
    (single : '\n' ∉ name ++ '\x7d' :: behind) :
    Directive.opening? (fence ++ '\x7b' :: (name ++ '\x7d' :: behind)) =
      if '\x7b' ∈ name then none else some (⟨'`', fence, name, behind⟩, []) := by
  have indented : indent (fence ++ '\x7b' :: (name ++ '\x7d' :: behind)) =
      '`' :: '`' :: '`' :: '\x7b' :: (name ++ '\x7d' :: behind) := rfl
  have marks : ('`' :: '`' :: '`' :: '\x7b' :: (name ++ '\x7d' :: behind)).takeWhile (· == '`') =
      fence := rfl
  have header : ('`' :: '`' :: '`' :: '\x7b' :: (name ++ '\x7d' :: behind)).dropWhile (· == '`') =
      '\x7b' :: (name ++ '\x7d' :: behind) := rfl
  have brace : char '\x7b' (skipSpacesAndTabs ('\x7b' :: (name ++ '\x7d' :: behind))) =
      some (name ++ '\x7d' :: behind) := rfl
  have long : ¬fence.length < 3 := by decide
  have isMark : Directive.isFenceMark '`' = true := rfl
  simp only [Directive.opening?, indented, List.head?_cons, Option.bind_eq_bind, Option.bind_some,
    marks, header, brace, isMark, long, Bool.not_true, Bool.false_eq_true, if_false]
  have plain {front : Text} (part : front ⊆ name) (unopened : '\x7b' ∉ front) :
      ∀ c ∈ front, Directive.isNameChar c = true := by
    intro c member
    have open' : c ≠ '\x7b' := fun same => unopened (same ▸ member)
    have close : c ≠ '\x7d' := fun same => unbraced (same ▸ part member)
    have newline : c ≠ '\n' := fun same => single (List.mem_append_left _ (same ▸ part member))
    simp [Directive.isNameChar, open', close, newline]
  by_cases braced : '\x7b' ∈ name
  · obtain ⟨front, back, split, unopened⟩ := List.eq_append_cons_of_mem braced
    have named := plain (split ▸ List.subset_append_left _ _) unopened
    rw [if_pos braced]
    rw [split, List.append_assoc, List.takeWhile_append_of_pos named,
      List.dropWhile_append_of_pos named]
    split
    · rfl
    · rfl
  · have named := plain (List.Subset.refl name) braced
    have argsSingle : '\n' ∉ behind := by simp_all
    have after := after_first_line_before_end (rfl : atLineEnd [] = true) argsSingle
    have first := first_line_before_end (rfl : atLineEnd [] = true) argsSingle
    rw [List.append_nil] at after first
    have closed : char '\x7d' ('\x7d' :: behind) = some behind := rfl
    rw [if_neg braced, List.takeWhile_append_of_pos named, List.dropWhile_append_of_pos named]
    have stop : ('\x7d' :: behind).takeWhile Directive.isNameChar = [] := rfl
    have stop' : ('\x7d' :: behind).dropWhile Directive.isNameChar = '\x7d' :: behind := rfl
    rw [stop, stop', List.append_nil, if_neg (by simpa using present), closed, Option.bind_some,
      after, first]
    rfl

variable {chunk : Chunk} {page : Text}

/-- The braces of a chunk name a directive, unless they hold another brace. -/
theorem StandsIn.opening_eq (stands : chunk.StandsIn (documentLines page)) :
    ∃ letter name behind, chunk.braced = letter :: name ∧ isBlank letter = false ∧
      Directive.opening? chunk.opening =
        if '\x7b' ∈ chunk.braced then none else some (⟨'`', fence, chunk.braced, behind⟩, []) := by
  obtain ⟨letter, name, behind, split, isLetter, unbraced⟩ := start_eq_some stands.opens
  have single : '\n' ∉ chunk.opening := by
    obtain ⟨above, below, whole, -⟩ := stands.stands
    have inside : chunk.opening ∈ documentLines page := by simp [whole]
    exact no_newline_of_mem_lines inside
  have braced : chunk.braced = letter :: name := by
    have plain : ∀ c ∈ letter :: name, (c != '\x7d') = true := by
      intro c member
      rw [bne_iff_ne]
      rintro rfl
      exact unbraced member
    have inside : chunk.opening.drop 4 = letter :: name ++ '\x7d' :: behind := by
      rw [split]
      rfl
    have stop : ('\x7d' :: behind).takeWhile (· != '\x7d') = [] := rfl
    rw [Chunk.braced, inside, List.takeWhile_append_of_pos plain, stop, List.append_nil]
  refine ⟨letter, name, behind, braced, not_blank_of_alpha isLetter, ?_⟩
  rw [split] at single
  rw [braced, split]
  apply opening_of_start (List.cons_ne_nil letter name) unbraced
  intro member
  apply single
  exact List.mem_append_right _ (List.mem_cons_of_mem _ member)

/-! ### The body of a chunk -/

/-- What ends a chunk closes a directive, also with its tabs written as spaces. -/
theorem closes_of_chunk_end {written shown : Text} (ends : isChunkEnd written = true)
    (same : TabsAsSpaces written shown) : Directive.closes '`' 3 shown = true := by
  rw [isChunkEnd, Bool.and_eq_true, startsWith, List.isPrefixOf_iff_prefix] at ends
  obtain ⟨⟨blanks, rfl⟩, blank⟩ := ends
  have all {written shown : Text} (same : TabsAsSpaces written shown)
      (blank : ∀ c ∈ written, isSpaceOrTab c = true) : ∀ c ∈ shown, isSpaceOrTab c = true := by
    induction same with
    | nil => exact blank
    | tab rest induction =>
        rw [List.forall_mem_cons] at blank
        simpa [isSpaceOrTab] using induction blank.2
    | same c rest induction =>
        rw [List.forall_mem_cons] at blank ⊢
        exact ⟨blank.1, induction blank.2⟩
  cases same with
  | same _ same =>
      cases same with
      | same _ same =>
          cases same with
          | @same _ _ shown same =>
              have spaces := all same (List.all_eq_true.mp blank)
              have left : (shown.dropWhile (· == '`')).all isSpaceOrTab = true :=
                List.all_eq_true.mpr fun c member =>
                  spaces c ((List.dropWhile_suffix _).mem member)
              have indented : indent ('`' :: '`' :: '`' :: shown) = '`' :: '`' :: '`' :: shown := rfl
              rw [Directive.closes, indented]
              simpa using left

section

variable (stands : chunk.StandsIn (documentLines page)) {position : Position}
  (placed : position.Placed page) (line : position.line = chunk.line) {first : Text}
  {lower : List Text} (cut : lines position.text = first :: lower)
include stands placed line cut

/-- The lines that are read below the opening one are those of the cell and what
ends it, with tabs written as spaces. -/
theorem StandsIn.shown_below : ∃ below,
    (∀ (index : Nat) (text : Text), lower[index]? = some text → ∃ written,
      (chunk.inner ++ below)[index]? = some written ∧ TabsAsSpaces written text) ∧
      ∀ line ∈ below.head?, isChunkEnd line = true := by
  obtain ⟨below, standing, ends⟩ := stands.lines_below
  refine ⟨below, fun index text found => ?_, ends⟩
  obtain ⟨written, here, same⟩ := placed.stands.line_below cut found
  rw [line] at here
  exact ⟨written, (standing index).symm.trans here, same⟩

theorem StandsIn.lower_ne_nil (empty : chunk.inner = [[]]) : lower ≠ [] := by
  rintro rfl
  obtain ⟨below, standing, -⟩ := stands.lines_below
  have count : newlineCount position.text = 0 := by
    have length := length_lines position.text
    rw [cut] at length
    exact (Nat.succ.inj length).symm
  have ends := placed.ends
  rw [count, line] at ends
  have follows := standing 0
  rw [empty] at follows
  exact ends follows

/-- A body with the text of the cell has the lines of the cell. -/
theorem StandsIn.inner_of_source
    (same : joinLines (lower.takeWhile (!Directive.closes '`' 3 ·)) = chunk.cell.source) :
    lower.takeWhile (!Directive.closes '`' 3 ·) = chunk.inner := by
  obtain ⟨below, shown, ends⟩ := stands.shown_below placed line cut
  have single : ∀ line ∈ lower.takeWhile (!Directive.closes '`' 3 ·), '\n' ∉ line := by
    intro line member
    have inside : line ∈ lines position.text := by
      rw [cut]
      exact List.mem_cons_of_mem _ ((List.takeWhile_prefix _).mem member)
    exact no_newline_of_mem_lines inside
  rcases (join_lines_eq_iff single stands.single).mp same with
    equal | ⟨nothing, empty⟩ | ⟨empty, nothing⟩
  · exact equal
  · -- the one line of the cell is empty, so it closes no body
    cases lower with
    | nil => exact absurd rfl (stands.lower_ne_nil placed line cut empty)
    | cons text lower =>
        obtain ⟨written, here, same⟩ := shown 0 text rfl
        rw [empty] at here
        cases here
        cases same
        cases nothing
  · -- an empty line below the opening one ends no chunk
    have head := congrArg List.head? empty
    rw [List.head?_takeWhile, List.head?_cons, Option.filter_eq_some_iff,
      List.head?_eq_getElem?] at head
    obtain ⟨written, here, same⟩ := shown 0 [] head.1
    cases same
    rw [nothing, List.nil_append, ← List.head?_eq_getElem?] at here
    cases ends [] here

/-- A body that begins with the lines of the cell ends with them, if none of them closes it. -/
theorem StandsIn.inner_of_unclosed (front : chunk.inner <+: lower)
    (unclosed : ∀ line ∈ chunk.inner, Directive.closes '`' 3 line = false) :
    lower.takeWhile (!Directive.closes '`' 3 ·) = chunk.inner := by
  obtain ⟨below, shown, ends⟩ := stands.shown_below placed line cut
  obtain ⟨more, whole⟩ := front
  have inside : ∀ line ∈ chunk.inner, (!Directive.closes '`' 3 line) = true := by
    intro line member
    rw [unclosed line member]
    rfl
  rw [← whole, List.takeWhile_append_of_pos inside]
  cases more with
  | nil => rw [List.takeWhile_nil, List.append_nil]
  | cons text more =>
      -- this line stands where the chunk ends
      have found : lower[chunk.inner.length]? = some text := by rw [← whole]; simp
      obtain ⟨written, here, same⟩ := shown _ _ found
      rw [List.getElem?_append_right (Nat.le_refl _), Nat.sub_self, ← List.head?_eq_getElem?] at here
      have closing := closes_of_chunk_end (ends written here) same
      rw [List.takeWhile_cons_of_neg (by simp [closing]), List.append_nil]

/-- What is read from the first line of a chunk on ends as the chunk does, unless
a line of the chunk closes it before, and cannot end otherwise with the same text. -/
theorem StandsIn.body_iff :
    joinLines (lower.takeWhile (!Directive.closes '`' 3 ·)) = chunk.cell.source ↔
      chunk.inner <+: lower ∧ ∀ line ∈ chunk.inner, Directive.closes '`' 3 line = false := by
  constructor
  · intro same
    rw [← stands.inner_of_source placed line cut same]
    refine ⟨List.takeWhile_prefix _, fun line member => ?_⟩
    simpa using List.mem_takeWhile_imp member
  · rintro ⟨front, unclosed⟩
    rw [stands.inner_of_unclosed placed line cut front unclosed]
    rfl

end

/-! ### Chunks as directives -/

/-- The chunk is a directive of the tree: one that is read from its opening line
on and has its lines as the body, with the language in front of its name. For
each time prose was joined before, the node stands one line lower. -/
def IsDirective (page : Text) (tree : Tree) (chunk : Chunk) : Prop :=
  ∃ position directive, Reached page position ∧ position.Reads directive ∧
    position.line = chunk.line ∧ firstLine position.text = chunk.opening ∧
    .directive directive.name directive.args directive.body (position.line + position.joins + 1) ∈
      Node.preorderAll tree.nodes ∧
    lower (firstWord directive.name) ∈ chunkLanguages ∧ directive.body = chunk.cell.source

/-- Reading the page as markup comes to a block at the opening line and finds the
lines of the chunk there, its braces name a language, and no line ends it early. -/
structure IsRead (page : Text) (chunk : Chunk) : Prop where
  begins : ∃ position, Reached page position ∧ position.next?.isSome = true ∧
    position.line = chunk.line ∧ chunk.opening :: chunk.inner <+: lines position.text
  unbraced : '\x7b' ∉ chunk.braced
  language : lower (firstWord chunk.braced) ∈ chunkLanguages
  unclosed : ∀ line ∈ chunk.inner, Directive.closes '`' 3 line = false

theorem not_admonition_of_language {name : Text}
    (language : lower (firstWord name) ∈ chunkLanguages) : isAdmonitionName name = false := by
  rw [Bool.eq_false_iff]
  intro isAdmonition
  have others : ∀ name ∈ admonitionNames, lower (firstWord name) ∉ chunkLanguages := by decide
  exact others name (List.contains_iff_mem.mp isAdmonition) language

theorem StandsIn.is_directive_iff (stands : chunk.StandsIn (documentLines page)) {tree : Tree}
    (read : Tree.ofText {} page = .ok tree) : chunk.IsDirective page tree ↔ chunk.IsRead page := by
  obtain ⟨letter, name, behind, braced, present, opening⟩ := stands.opening_eq
  constructor
  · rintro ⟨position, directive, reached, reads, line, first, -, language, body⟩
    obtain ⟨next, rest, -, found, read, -⟩ := Position.of_reads reads
    obtain ⟨lower, cut⟩ := lines_first_line position.text
    obtain ⟨opened, opens, -, rfl⟩ := (Directive.read_iff_lines cut).mp ⟨rest, read⟩
    rw [first, opening] at opens
    split at opens
    · cases opens
    · rename_i unbraced
      cases opens
      obtain ⟨front, unclosed⟩ :=
        (stands.body_iff (Position.placed_of_reached reached) line cut).mp body
      refine ⟨⟨position, reached, by rw [found]; rfl, line, ?_⟩, unbraced, ?_, unclosed⟩
      · rw [cut, first]
        exact List.cons_prefix_cons.mpr ⟨rfl, front⟩
      · rw [braced, ← first_word_trim present, ← braced]
        exact language
  · rintro ⟨⟨position, reached, begins, line, front⟩, unbraced, language, unclosed⟩
    obtain ⟨lower, cut⟩ := lines_first_line position.text
    rw [cut, List.cons_prefix_cons] at front
    obtain ⟨first, front⟩ := front
    rw [if_neg unbraced, first] at opening
    obtain ⟨rest, taken⟩ : ∃ rest, Directive.read? true position.text =
        some (Directive.ofLines ⟨'`', fence, chunk.braced, behind⟩ lower, rest) :=
      (Directive.read_iff_lines cut).mpr ⟨_, opening, fun _ => rfl, rfl⟩
    obtain ⟨_, _, after, split, -⟩ := start_eq_some stands.opens
    have fenced := first_line_append_after position.text
    rw [← first, split, List.append_assoc] at fenced
    have reads := Position.reads_of_fence begins fenced.symm taken
    have body := (stands.body_iff (Position.placed_of_reached reached) line cut).mpr
      ⟨front, unclosed⟩
    have named : Text.lower (firstWord (trim chunk.braced)) ∈ chunkLanguages := by
      rw [braced, first_word_trim present, ← braced]
      exact language
    refine ⟨position, _, reached, reads, line, first.symm, ?_, named, body⟩
    obtain ⟨raw, link, inside⟩ := (Position.shown_of_reached read reached).node reads
    apply inside
    have other : isAdmonitionName (trim chunk.braced) = false := not_admonition_of_language named
    rw [Node.ofBlock, if_neg (by simpa [Directive.ofLines] using other)]
    exact List.mem_singleton_self _

end Chunk

end Notebook

namespace Page

open Notebook

/-- Each code cell of a notebook is a chunk of its page, and the chunk is a
directive of the page exactly where it is read as one. -/
theorem chunk_is_directive_iff {page : Text} {notebook : Notebook}
    (accepted : Notebook.ofText page = .ok notebook) : ∃ tree stretches,
    Tree.ofText {} page = .ok tree ∧ Divided (bodyLines page) stretches ∧
      notebook.cells.filter (fun cell => cell.kind = .code) =
        (Chunk.ofPage page stretches).map Chunk.cell ∧
      ∀ chunk ∈ Chunk.ofPage page stretches, chunk.StandsIn (documentLines page) ∧
        (chunk.IsDirective page tree ↔ chunk.IsRead page) := by
  obtain ⟨stretches, divided⟩ := divided_exists (bodyLines page)
  refine ⟨_, stretches, Tree.of_text_severe Extension.all page, divided,
    code_cells_of_page accepted divided, fun chunk member => ?_⟩
  have stands := Chunk.stands_of_page divided member
  exact ⟨stands, stands.is_directive_iff (Tree.of_text_severe Extension.all page)⟩

theorem nested_chunk_is_directive_iff :
    let page := "A\n:::\x7bnote\x7d\n```\x7br, echo=F\x7d\n1\n```\n:::\n".toList
    ∃ notebook tree stretches, Notebook.ofText page = .ok notebook ∧
      Tree.ofText {} page = .ok tree ∧ Divided (bodyLines page) stretches ∧
      notebook.cells.filter (fun cell => cell.kind = .code) =
        (Chunk.ofPage page stretches).map Chunk.cell ∧
      ∀ chunk ∈ Chunk.ofPage page stretches, chunk.StandsIn (documentLines page) ∧
        (chunk.IsDirective page tree ↔ chunk.IsRead page) := by
  intro page
  have accepted : Notebook.ofText page = .ok { cells := bodyCells (documentLines page) } := by rfl
  obtain ⟨tree, stretches, agrees⟩ := chunk_is_directive_iff accepted
  exact ⟨_, tree, stretches, accepted, agrees⟩

/-- Some code cell of the page is the body of no code chunk of its tree. -/
def HasStrayCode (page : Text) : Prop :=
  ∃ notebook tree, Notebook.ofText page = .ok notebook ∧ Tree.ofText {} page = .ok tree ∧
    ¬∀ cell ∈ notebook.cells, cell.kind = .code → ∃ name args line,
      .directive name args cell.source line ∈ Node.preorderAll tree.nodes ∧
        lower (firstWord name) ∈ chunkLanguages

theorem has_stray_code_of_no_chunk {page : Text}
    (headless : Header.split? (documentLines page) = none)
    (code : .code ∈ (bodyCells (documentLines page)).map Cell.kind)
    (others : ∀ node ∈ Node.preorderAll (Node.ofBlocks Extension.all 1 false
      (Block.ofText Extension.all page)).1, node.isChunk = false) : HasStrayCode page := by
  have accepted : Notebook.ofText page = .ok { cells := bodyCells (documentLines page) } :=
    of_text_by_headless headless
  refine ⟨_, _, accepted, Tree.of_text_severe Extension.all page, ?_⟩
  intro all
  obtain ⟨cell, member, kind⟩ := List.mem_map.mp code
  obtain ⟨name, args, line, inside, language⟩ := all cell member kind
  have chunk : Node.isChunk (.directive name args cell.source line) = true :=
    List.contains_iff_mem.mpr language
  rw [others _ inside] at chunk
  cases chunk

/-- The text of an exercise becomes code, and so do the lines of a longer fence. -/
theorem text_becomes_code :
    HasStrayCode "```\x7bexercise\x7d\nDo it.\n```\n".toList ∧
      HasStrayCode "````\n```\x7bpython\x7d\n1\n```\n````\n".toList := by
  constructor
  · apply has_stray_code_of_no_chunk <;> decide +kernel
  · apply has_stray_code_of_no_chunk <;> decide +kernel

end Page

end LessonBook
