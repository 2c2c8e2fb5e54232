import LessonBook.Notebook.Header
import LessonBook.Proofs.Markup.LineAccounting
import LessonBook.Proofs.Text.FirstLine
import LessonBook.Proofs.Text.Search

/-!
Front matter line by line. It stands between a first line of dashes and the next
line of dashes or dots that is not the second line, unless the second line makes
the first one the term of a definition; and no other block of a page is front matter.
-/

namespace LessonBook

open Text Recognizer

namespace FrontMatter

def isDots (line : Text) : Bool :=
  startsWith ['.', '.', '.'] line && (line.drop 3).all isSpaceOrTab

def endsAt (line : Text) : Bool :=
  Header.isDelimiter line || isDots line

def isDefinition (line : Text) : Bool :=
  (DefinitionList.definition? line).isSome

/-- The lines of front matter and those behind it, if the lines begin with front
matter. The second line belongs to it in any case. -/
def split? : List Text → Option (List Text × List Text)
  | first :: second :: others =>
      if Header.isDelimiter first && !isDefinition second && others.any endsAt then
        some (second :: others.takeWhile (!endsAt ·), (others.dropWhile (!endsAt ·)).drop 1)
      else none
  | _ => none

/-- Front matter with the lines around it. -/
theorem split_eq_some_iff {pageLines : List Text} {found : List Text × List Text} :
    split? pageLines = some found ↔ ∃ opening second middle closing,
      pageLines = opening :: second :: (middle ++ closing :: found.2) ∧
        found.1 = second :: middle ∧ Header.isDelimiter opening = true ∧
        isDefinition second = false ∧ (∀ line ∈ middle, endsAt line = false) ∧
        endsAt closing = true := by
  constructor
  · intro split
    match pageLines, split with
    | opening :: second :: others, split =>
        rw [split?] at split
        split at split
        · rename_i accepted
          cases split
          simp only [Bool.and_eq_true, Bool.not_eq_true'] at accepted
          obtain ⟨⟨delimiter, undefining⟩, ends⟩ := accepted
          have parts := List.takeWhile_append_dropWhile (p := (!endsAt ·)) (l := others)
          cases left : others.dropWhile (!endsAt ·) with
          | nil =>
              rw [List.dropWhile_eq_nil_iff] at left
              obtain ⟨line, member, closes⟩ := List.any_eq_true.mp ends
              have refused := left line member
              rw [closes] at refused
              cases refused
          | cons closing below =>
              have closes := List.head_dropWhile_not (p := (!endsAt ·)) (l := others) (by simp [left])
              simp only [left, List.head_cons, Bool.not_eq_false'] at closes
              rw [left] at parts
              exact ⟨opening, second, _, closing, congrArg (opening :: second :: ·) parts.symm, rfl,
                delimiter, undefining, fun line member => by simpa using List.mem_takeWhile_imp member,
                closes⟩
        · cases split
  · rintro ⟨opening, second, middle, closing, rfl, inner, delimiter, undefining, inside, ends⟩
    have kept : ∀ line ∈ middle, (!endsAt line) = true := fun line member => by
      rw [inside line member]
      rfl
    have present : (middle ++ closing :: found.2).any endsAt = true :=
      List.any_eq_true.mpr ⟨closing, by simp, ends⟩
    have accepted : (Header.isDelimiter opening && !isDefinition second &&
        (middle ++ closing :: found.2).any endsAt) = true := by
      rw [delimiter, undefining, present]
      rfl
    rw [split?, if_pos accepted, List.takeWhile_append_of_pos kept, List.dropWhile_append_of_pos kept]
    simp [ends, ← inner]

theorem word_eq (letters line : Text) :
    word letters line = if startsWith letters line then some (line.drop letters.length) else none := by
  rw [startsWith]
  by_cases begins : letters <+: line
  · obtain ⟨rest, rfl⟩ := begins
    rw [if_pos (List.isPrefixOf_iff_prefix.mpr (List.prefix_append _ _)), word_append,
      List.drop_left]
  · rw [if_neg (mt List.isPrefixOf_iff_prefix.mp begins), word_of_absent begins]

variable {tail line : Text} (ended : atLineEnd tail = true) (single : '\n' ∉ line)
include ended single

/-- Behind the blanks of a line comes its end or another character of it. -/
theorem blanks_before_end :
    (line.all isSpaceOrTab = true ∧ skipSpacesAndTabs (line ++ tail) = tail) ∨
      line.all isSpaceOrTab = false ∧
        ∃ c rest, skipSpacesAndTabs (line ++ tail) = c :: rest ∧ c ≠ '\n' := by
  rw [skip_spaces_and_tabs_before_end ended]
  cases left : skipSpacesAndTabs line with
  | nil =>
      rw [skipSpacesAndTabs, List.dropWhile_eq_nil_iff] at left
      exact .inl ⟨List.all_eq_true.mpr left, rfl⟩
  | cons c rest =>
      have inside : c ∈ line := by
        have suffix := List.dropWhile_suffix (l := line) isSpaceOrTab
        rw [← skipSpacesAndTabs, left] at suffix
        exact suffix.mem (by simp)
      refine .inr ⟨?_, c, rest ++ tail, rfl, fun newline => single (newline ▸ inside)⟩
      by_contra all
      rw [Bool.not_eq_false] at all
      rw [skipSpacesAndTabs, List.dropWhile_eq_nil_iff.mpr (List.all_eq_true.mp all)] at left
      cases left

theorem ruled_before_end {letters : Text} (plain : '\n' ∉ letters) :
    ((word letters (line ++ tail)).bind fun closed =>
      if atLineEnd (skipSpacesAndTabs closed) then some (skipSpacesAndTabs closed) else none) =
    if startsWith letters line && (line.drop letters.length).all isSpaceOrTab then some tail
      else none := by
  rw [word_before_end letters plain ended, word_eq]
  cases startsWith letters line with
  | false => rfl
  | true =>
      have dropped := single_of_suffix single (List.drop_suffix letters.length line)
      simp only [if_true, Option.map_some, Option.bind_some, Bool.true_and]
      rcases blanks_before_end ended dropped with ⟨all, left⟩ | ⟨other, c, rest, left, plain⟩
      · rw [left, if_pos ended, if_pos all]
      · rw [left, if_neg (by simpa [atLineEnd] using plain), if_neg (by simp [other])]

theorem closing_before_end :
    closing? ('\n' :: (line ++ tail)) = if endsAt line then some tail else none := by
  have dashes := ruled_before_end ended single (show '\n' ∉ ['-', '-', '-'] by decide)
  have dots := ruled_before_end ended single (show '\n' ∉ ['.', '.', '.'] by decide)
  have steps : closing? ('\n' :: (line ++ tail)) =
      (orElse (word ['-', '-', '-']) (word ['.', '.', '.']) (line ++ tail)).bind fun closed =>
        if atLineEnd (skipSpacesAndTabs closed) then some (skipSpacesAndTabs closed) else none := rfl
  rw [steps, orElse, endsAt]
  cases begins : word ['-', '-', '-'] (line ++ tail) with
  | none =>
      have other : Header.isDelimiter line = false := by
        cases isDelimiter : Header.isDelimiter line with
        | false => rfl
        | true =>
            rw [begins] at dashes
            exact absurd (dashes.trans (if_pos isDelimiter)) (by simp)
      rw [other, Bool.false_or]
      exact dots
  | some closed =>
      have noDots : isDots line = false := by
        rw [word_before_end _ (by decide) ended, Option.map_eq_some_iff] at begins
        obtain ⟨rest, begins, -⟩ := begins
        rw [word_eq_some_iff.mp begins]
        rfl
      rw [noDots, Bool.or_false]
      rw [begins] at dashes
      exact dashes

theorem opening_before_end :
    ((word ['-', '-', '-'] (line ++ tail)).bind fun dashes => char '\n' (skipSpacesAndTabs dashes)) =
      if Header.isDelimiter line then char '\n' tail else none := by
  rw [word_before_end _ (by decide) ended, word_eq, Header.isDelimiter]
  have same : startsWith Header.delimiter line = startsWith ['-', '-', '-'] line := rfl
  rw [same]
  cases startsWith ['-', '-', '-'] line with
  | false => rfl
  | true =>
      have dropped := single_of_suffix single (List.drop_suffix 3 line)
      have length : ['-', '-', '-'].length = 3 := rfl
      simp only [if_true, Option.map_some, Option.bind_some, Bool.true_and, length]
      rcases blanks_before_end ended dropped with ⟨all, left⟩ | ⟨other, c, rest, left, plain⟩
      · rw [left, if_pos all]
      · rw [left, if_neg (by simp [other]), char, one, if_neg (by simpa using plain)]

omit ended

theorem first_match_behind_line (rest : Text) :
    firstMatch closing? (line ++ rest) =
      (firstMatch closing? rest).map fun found => (line ++ found.1, found.2) := by
  induction line with
  | nil => simp
  | cons c line induction =>
      simp only [List.mem_cons, not_or] at single
      have refused : closing? (c :: (line ++ rest)) = none := by
        simp [closing?, char, one, Ne.symm single.1]
      rw [List.cons_append, firstMatch]
      simp only [refused]
      rw [induction single.2, Option.map_map]
      rfl

/-- The search for the closing line begins behind the second line. -/
theorem first_closing_line (below : List Text) (belowSingle : ∀ other ∈ below, '\n' ∉ other) :
    firstMatch closing? (line ++ linesBelow below) =
      if below.any endsAt then
        some (line ++ linesBelow (below.takeWhile (!endsAt ·)),
          linesBelow ((below.dropWhile (!endsAt ·)).drop 1))
      else none := by
  induction below generalizing line with
  | nil =>
      rw [first_match_behind_line single]
      rfl
  | cons next others induction =>
      rw [List.forall_mem_cons] at belowSingle
      have ended : atLineEnd (linesBelow others) = true := by cases others <;> rfl
      rw [first_match_behind_line single, lines_below_cons, firstMatch,
        closing_before_end ended belowSingle.1, List.any_cons]
      cases closes : endsAt next with
      | true => simp [closes]
      | false =>
          rw [induction belowSingle.1 belowSingle.2]
          simp only [Bool.false_eq_true, if_false, Bool.false_or]
          cases others.any endsAt <;> simp [closes]

omit single

theorem read_of_lines {first : Text} (more : List Text) (single : ∀ line ∈ first :: more, '\n' ∉ line) :
    read? (joinLines (first :: more)) =
      if Header.isDelimiter first then
        match more with
        | [] => none
        | second :: below =>
            if below.any endsAt then
              some (joinLines (second :: below.takeWhile (!endsAt ·)),
                linesBelow ((below.dropWhile (!endsAt ·)).drop 1))
            else none
      else none := by
  rw [List.forall_mem_cons] at single
  have ended : atLineEnd (linesBelow more) = true := by cases more <;> rfl
  have steps (text : Text) : read? text =
      ((word ['-', '-', '-'] text).bind fun dashes => char '\n' (skipSpacesAndTabs dashes)).bind
        (firstMatch closing?) := by
    rw [Option.bind_assoc]
    rfl
  rw [steps, join_lines_cons, opening_before_end ended single.1]
  cases Header.isDelimiter first with
  | false => rfl
  | true =>
      cases more with
      | nil => rfl
      | cons second below =>
          have below_single := single.2
          rw [List.forall_mem_cons] at below_single
          simp only [if_true, join_lines_cons]
          rw [← first_closing_line below_single.1 below below_single.2]
          rfl

/-! ### Definitions in front of it -/

theorem definition_before_end {tail : Text} (ended : atLineEnd tail = true) (line : Text) :
    (DefinitionList.definition? (line ++ tail)).isSome = isDefinition line := by
  let written (text : Text) : Option Text :=
    ((char ':' (indent text)).bind (some1 isSpaceOrTab)).bind (one fun c => !isBlank c)
  have decides (text : Text) : (DefinitionList.definition? text).isSome = (written text).isSome := by
    have steps : DefinitionList.definition? text =
        (written text).bind fun rest => lineEnd (afterFirstLine rest) := by
      rw [Option.bind_assoc, Option.bind_assoc]
      rfl
    rw [steps]
    cases written text with
    | none => rfl
    | some rest =>
        rw [Option.bind_some, line_end_of_end (Directive.after_first_line_ends rest)]
        rfl
  have blanks (text : Text) :
      some1 isSpaceOrTab (text ++ tail) = (some1 isSpaceOrTab text).map (· ++ tail) := by
    rw [some1, some1, one_before_end _ (by decide) ended]
    cases one isSpaceOrTab text with
    | none => rfl
    | some rest => simp [drop_while_before_end _ (show isSpaceOrTab '\n' = false by decide) ended]
  have kept : written (line ++ tail) = (written line).map (· ++ tail) := by
    simp only [written, indent]
    rw [skip_up_to_before_end _ (by decide) ended, char_before_end ':' (by decide) ended]
    cases char ':' (skipUpTo (· == ' ') 3 line) with
    | none => rfl
    | some inside =>
        simp only [Option.map_some, Option.bind_some, blanks]
        cases some1 isSpaceOrTab inside with
        | none => rfl
        | some rest => exact one_before_end _ (by decide) ended rest
  rw [isDefinition, decides, decides, kept, Option.isSome_map]

theorem definitions_of_lines {first : Text} (delimiter : Header.isDelimiter first = true)
    (more : List Text) (single : ∀ line ∈ first :: more, '\n' ∉ line) :
    (DefinitionList.read? (joinLines (first :: more))).isSome = (more.head?.map isDefinition).getD false := by
  obtain ⟨rest, rfl⟩ : ∃ rest, first = '-' :: '-' :: '-' :: rest := by
    rw [Header.isDelimiter, Bool.and_eq_true, startsWith, List.isPrefixOf_iff_prefix] at delimiter
    obtain ⟨rest, same⟩ := delimiter.1
    exact ⟨rest, same.symm⟩
  rw [List.forall_mem_cons] at single
  have ended : atLineEnd (linesBelow more) = true := by cases more <;> rfl
  have below := after_first_line_before_end ended single.1
  rw [join_lines_cons]
  have written : indent ('-' :: '-' :: '-' :: rest ++ linesBelow more) =
      '-' :: '-' :: '-' :: rest ++ linesBelow more := rfl
  have term : DefinitionList.startsTerm ('-' :: '-' :: '-' :: rest ++ linesBelow more) = true := rfl
  simp only [DefinitionList.read?, written, term, below, Bool.not_true, Bool.false_eq_true, if_false,
    Option.bind_eq_bind]
  cases more with
  | nil => rfl
  | cons second others =>
      have othersEnded : atLineEnd (linesBelow others) = true := by cases others <;> rfl
      have defined := definition_before_end othersEnded second
      have inside : char '\n' (linesBelow (second :: others)) = some (second ++ linesBelow others) := rfl
      rw [inside, List.head?_cons, Option.map_some, Option.getD_some, ← defined]
      simp only [Option.bind_some, DefinitionList.entry?]
      cases DefinitionList.definition? (second ++ linesBelow others) <;> rfl

/-- Where no definition is read, front matter is what the lines say. -/
theorem read_unless_defined (text : Text) :
    (if (DefinitionList.read? text).isSome then none else read? text) =
      (split? (lines text)).map fun found => (joinLines found.1, linesBelow found.2) := by
  have single : ∀ line ∈ lines text, '\n' ∉ line := fun line => no_newline_of_mem_lines
  have whole := join_lines_of_lines text
  cases cut : lines text with
  | nil => exact absurd cut (lines_ne_nil text)
  | cons first more =>
      rw [cut] at single whole
      have read := read_of_lines more single
      rw [whole] at read
      cases delimiter : Header.isDelimiter first with
      | false =>
          rw [read, delimiter]
          cases more <;> simp [split?, delimiter]
      | true =>
          have defined := definitions_of_lines delimiter more single
          rw [whole] at defined
          rw [read, defined, if_pos delimiter]
          cases more with
          | nil => rfl
          | cons second below =>
              rw [split?, delimiter]
              simp only [List.head?_cons, Option.map_some, Option.getD_some, Bool.true_and]
              by_cases defines : isDefinition second = true
              · simp [defines]
              · by_cases ends : below.any endsAt = true
                · simp only [defines, ends, if_false, if_true, Bool.not_false, Bool.true_and,
                    Bool.false_eq_true, Option.map_some]
                · simp [ends]

end FrontMatter

def Block.frontMatter? : Block → Option Text
  | .leaf _ (.frontMatter text) => some text
  | _ => none

namespace BlockReader

variable {enabled : List Extension} {inner : Inner} {progress next : Progress} {text rest : Text}

def KeepsFrontMatter (progress next : Progress) : Prop :=
  next.blocks.map Block.frontMatter? = progress.blocks.map Block.frontMatter? ∨
    next.blocks.map Block.frontMatter? = none :: progress.blocks.map Block.frontMatter?

theorem keeps_of_leaf {Content : Type} {read : Text → Option (Content × Text)}
    {leaf : Content → Leaf} (other : ∀ raw content, (Block.leaf raw (leaf content)).frontMatter? = none)
    (taken : leafStep read leaf progress text = some (next, rest)) :
    KeepsFrontMatter progress next := by
  obtain ⟨content, -, rfl⟩ := leaf_step_eq_some taken
  exact .inr (congrArg (· :: _) (other _ content))

theorem keeps_add_space (raw : Text) (progress : Progress) :
    KeepsFrontMatter progress (progress.addSpace raw) := by
  rcases add_space_cases raw progress with pushed | ⟨c, last, earlier, -, blocks, blocks'⟩
  · exact .inr (by rw [pushed]; rfl)
  · have same : (last.extendRaw ['\n']).frontMatter? = last.frontMatter? := by
      cases last with
      | leaf raw content => cases content <;> rfl
      | directive | quote | list => rfl
    exact .inl (by rw [blocks', blocks, List.map_cons, List.map_cons, same])

theorem keeps_add_indented (raw content : Text) (progress : Progress) :
    KeepsFrontMatter progress (progress.addIndented raw content) := by
  unfold Progress.addIndented
  split
  · rename_i blocks
    exact .inl (by rw [blocks]; rfl)
  · rename_i blocks
    exact .inl (by rw [blocks]; rfl)
  · exact .inr rfl

theorem keeps_add_paragraph (raw content : Text) (clipped : Bool) (progress : Progress) :
    KeepsFrontMatter progress (progress.addParagraph raw content clipped) := by
  unfold Progress.addParagraph
  split
  · rename_i blocks
    exact .inl (by rw [blocks]; rfl)
  · exact .inr rfl

theorem keeps_add_line (content : Text) (progress : Progress) :
    KeepsFrontMatter progress (progress.addLine content) := by
  unfold Progress.addLine
  split
  · rename_i blocks
    exact .inl (by rw [blocks]; rfl)
  · exact .inr rfl

theorem early_step_keeps (refused : frontMatterStep progress text = none) {step : Step}
    (member : step ∈ earlySteps enabled inner) (taken : step progress text = some (next, rest)) :
    KeepsFrontMatter progress next := by
  simp only [earlySteps, List.mem_cons, List.not_mem_nil, or_false] at member
  rcases member with rfl | rfl | rfl | rfl | rfl | rfl | rfl
  · exact keeps_of_leaf (fun _ _ => rfl) (of_when taken)
  · exact keeps_of_leaf (fun _ _ => rfl) (of_when taken)
  · exact keeps_of_leaf (fun _ _ => rfl) (of_when taken)
  · exact keeps_of_leaf (fun _ _ => rfl) (of_when taken)
  · exact keeps_of_leaf (fun _ _ => rfl) (of_when taken)
  · obtain ⟨directive, -, rfl⟩ := directive_step_eq_some taken
    exact .inr rfl
  · rw [refused] at taken
    cases taken

theorem late_step_keeps {step : Step} (member : step ∈ lateSteps enabled inner)
    (taken : step progress text = some (next, rest)) : KeepsFrontMatter progress next := by
  simp only [lateSteps, List.mem_cons, List.not_mem_nil, or_false] at member
  rcases member with rfl | rfl | rfl | rfl | rfl | rfl | rfl | rfl | rfl | rfl | rfl
  · obtain ⟨content, -, rfl⟩ := indented_step_eq_some taken
    exact keeps_add_indented _ content progress
  · exact keeps_of_leaf (fun _ _ => rfl) taken
  · exact keeps_of_leaf (fun _ _ => rfl) taken
  · obtain ⟨-, rfl⟩ := rule_step_eq_some taken
    exact .inr rfl
  · obtain ⟨content, -, rfl⟩ := quote_step_eq_some taken
    exact .inr rfl
  · obtain ⟨contents, -, rfl⟩ := list_step_eq_some taken
    exact .inr rfl
  · obtain ⟨-, rfl⟩ := html_step_eq_some taken
    exact .inr rfl
  · exact keeps_of_leaf (fun _ _ => rfl) (of_when taken)
  · exact keeps_of_leaf (fun _ _ => rfl) taken
  · simp only [paragraphStep] at taken
    split at taken
    · cases taken
    · simp only [Option.bind_eq_bind, Option.bind_eq_some_iff, Option.some.injEq,
        Prod.mk.injEq] at taken
      obtain ⟨left, -, rfl, -⟩ := taken
      exact keeps_add_paragraph _ _ _ progress
  · simp only [lineStep] at taken
    split at taken
    · cases taken
    · cases taken
      exact keeps_add_line _ progress

theorem first_step_keeps (refused : frontMatterStep progress text = none)
    (found : firstStep progress text (steps enabled inner) = some (next, rest)) :
    KeepsFrontMatter progress next := by
  rw [steps_eq] at found
  rcases first_step_split found with ⟨step, member, taken⟩ | taken | ⟨-, later⟩
  · exact early_step_keeps refused member taken
  · simp only [spaceStep] at taken
    split at taken
    · cases taken
      exact keeps_add_space _ progress
    · cases taken
  · obtain ⟨step, member, taken⟩ := first_step_mem later
    exact late_step_keeps member taken

/-- Behind the first block no front matter is read. -/
theorem read_from_keeps (enabled : List Extension) (fuel : Nat) (text : Text)
    (present : progress.blocks ≠ []) : ∃ count,
    (readFrom enabled fuel progress text).blocks.map Block.frontMatter? =
      List.replicate count none ++ progress.blocks.map Block.frontMatter? := by
  induction fuel generalizing progress text with
  | zero => exact ⟨0, rfl⟩
  | succ fuel induction =>
      rw [read_from_succ]
      split
      · exact ⟨0, rfl⟩
      · split
        · rename_i next rest found
          have refused : frontMatterStep progress text = none := by
            rw [frontMatterStep, if_neg (by simpa using present)]
          have keeps := first_step_keeps refused found
          have still : next.blocks ≠ [] := by
            rintro none
            rcases keeps with same | more
            · rw [none] at same
              exact present (List.map_eq_nil_iff.mp same.symm)
            · rw [none] at more
              cases more
          obtain ⟨count, kept⟩ := induction rest still
          rcases keeps with same | more
          · exact ⟨count, by rw [kept, same]⟩
          · refine ⟨count + 1, ?_⟩
            rw [kept, more, List.replicate_succ', List.append_assoc, List.singleton_append]
        · exact ⟨0, rfl⟩

theorem present_of_first_step
    (found : firstStep progress text (steps enabled inner) = some (next, rest)) :
    next.blocks ≠ [] := by
  cases first_step_advance found with
  | pushed block blocks => simp [blocks]
  | space raw =>
      rcases add_space_cases raw progress with blocks | ⟨c, last, earlier, -, -, blocks⟩ <;>
        simp [blocks]
  | joined front raw leaf extended earlier blocks blocks' => simp [blocks']

theorem first_step_skip {step : Step} {others : List Step} (refused : step progress text = none) :
    firstStep progress text (step :: others) = firstStep progress text others := by
  rw [firstStep, refused]

theorem first_step_take {step : Step} {others : List Step} {result : Progress × Text}
    (taken : step progress text = some result) :
    firstStep progress text (step :: others) = some result := by
  rw [firstStep, taken]

/-- Before a line of dashes only definitions are tried with success. -/
theorem first_step_of_dashes {paragraphs : Bool} {content : Text}
    (read : FrontMatter.read? text = some (content, rest)) :
    firstStep (.start paragraphs) text (steps Extension.all inner) =
      (leafStep DefinitionList.read? (fun (term, definitions) => .definitions term definitions)
        (.start paragraphs) text).or (leafStep FrontMatter.read? .frontMatter (.start paragraphs) text) := by
  obtain ⟨more, split⟩ : ∃ more, text = '-' :: '-' :: '-' :: more := by
    simp only [FrontMatter.read?, Option.bind_eq_bind, Option.bind_eq_some_iff, word_eq_some_iff] at read
    obtain ⟨dashes, split, -⟩ := read
    exact ⟨dashes, split⟩
  have image : ImageElement.read? text = none := by rw [split]; rfl
  have fields : FieldList.read? text = none := by rw [split]; rfl
  have environment : Formula.environment? atLineEnd text = none := by rw [split]; rfl
  have dollar : Formula.dollar? atLineEnd text = none := by rw [split]; rfl
  have directive (colonFence : Bool) : Directive.read? colonFence text = none := by rw [split]; rfl
  have enabled : Extension.all.contains .deflist = true := rfl
  have taken : leafStep FrontMatter.read? .frontMatter (.start paragraphs) text =
      some ((Progress.start paragraphs).pushLeaf (before text rest) (.frontMatter content), rest) := by
    rw [leafStep, read]
    rfl
  rw [steps_eq, earlySteps, List.cons_append, first_step_skip (by simp [when, leafStep, image]),
    List.cons_append, first_step_skip (by simp [when, leafStep, fields]), List.cons_append]
  cases definitions : leafStep DefinitionList.read?
      (fun (term, definitions) => .definitions term definitions) (.start paragraphs) text with
  | some result =>
      apply first_step_take
      rw [when, if_pos enabled, definitions]
  | none =>
      rw [first_step_skip (by rw [when, if_pos enabled, definitions]), List.cons_append,
        first_step_skip (by simp [when, leafStep, environment]), List.cons_append,
        first_step_skip (by simp [when, leafStep, dollar]), List.cons_append,
        first_step_skip (by simp [directiveStep, directive]), List.cons_append, taken]
      apply first_step_take
      exact taken

/-- The first step reads front matter if the first lines are such, and otherwise
adds none. -/
theorem first_step_front_matter {paragraphs : Bool}
    (found : firstStep (.start paragraphs) text (steps Extension.all inner) = some (next, rest)) :
    next.blocks.map Block.frontMatter? =
        [(FrontMatter.split? (lines text)).map fun found => joinLines found.1] := by
  have deciding := congrArg (Option.map Prod.fst) (FrontMatter.read_unless_defined text)
  rw [Option.map_map] at deciding
  have same : (FrontMatter.split? (lines text)).map (fun found => joinLines found.1) = _ :=
    deciding.symm
  rw [same]
  cases read : FrontMatter.read? text with
  | none =>
      have refused : frontMatterStep (.start paragraphs) text = none := by
        simp [frontMatterStep, leafStep, read]
      have present := present_of_first_step found
      rcases first_step_keeps refused found with empty | single
      · exact absurd (List.map_eq_nil_iff.mp empty) present
      · rw [single, ite_self]
        rfl
  | some result =>
      obtain ⟨content, behind⟩ := result
      rw [first_step_of_dashes read] at found
      cases defined : DefinitionList.read? text with
      | none =>
          simp only [leafStep, defined, read, Option.bind_eq_bind, Option.bind_none,
            Option.bind_some, Option.none_or, Option.some.injEq, Prod.mk.injEq] at found
          rw [← found.1]
          rfl
      | some entry =>
          simp only [leafStep, defined, Option.bind_eq_bind, Option.bind_some, Option.some_or,
            Option.some.injEq, Prod.mk.injEq] at found
          rw [← found.1]
          rfl

end BlockReader

open BlockReader

/-- The first block of a page is front matter if its first lines are, and no other block is. -/
theorem Block.front_matter_of_text (page : Text) : ∃ count,
    (Block.ofText Extension.all page).map Block.frontMatter? =
        (FrontMatter.split? (lines (Block.source page))).map (fun found => joinLines found.1) ::
          List.replicate count none ∨
      Block.ofText Extension.all page = [] ∧ FrontMatter.split? (lines (Block.source page)) = none := by
  have blocks : Block.ofText Extension.all page =
      (readFrom Extension.all ((normalizeLineEnds page).length + 2) (.start true)
        (Block.source page)).blocks.reverse := rfl
  rw [blocks, read_from_succ]
  split
  · rename_i empty
    refine ⟨0, .inr ⟨rfl, ?_⟩⟩
    rw [List.isEmpty_iff.mp empty]
    rfl
  · split
    · rename_i next rest found
      obtain ⟨count, kept⟩ := read_from_keeps Extension.all ((normalizeLineEnds page).length + 1)
        rest (present_of_first_step found)
      refine ⟨count, .inl ?_⟩
      rw [List.map_reverse, kept, first_step_front_matter found]
      simp
    · rename_i refused
      refine ⟨0, .inr ⟨rfl, ?_⟩⟩
      have unread : FrontMatter.read? (Block.source page) = none := by
        cases read : FrontMatter.read? (Block.source page) with
        | none => rfl
        | some result =>
            rw [first_step_of_dashes read, Option.or_eq_none_iff] at refused
            simp [leafStep, read] at refused
      have deciding := FrontMatter.read_unless_defined (Block.source page)
      rw [unread, ite_self] at deciding
      exact Option.map_eq_none_iff.mp deciding.symm

namespace Node

theorem front_matter_of_block (enabled : List Extension) (line : Nat) (insideLink : Bool)
    {block : Block} {text : Text} (isFrontMatter : block.frontMatter? = some text) :
    ofBlock enabled line insideLink block =
      (some (.block "frontmatter" (some text) [] line), insideLink) := by
  cases block with
  | leaf raw content =>
      cases content <;> cases isFrontMatter
      rfl
  | directive | quote | list => cases isFrontMatter

theorem kind_of_other_block (enabled : List Extension) (line : Nat) (insideLink : Bool)
    {block : Block} (other : block.frontMatter? = none) {text : Option Text} {names : List Text}
    {start : Nat} :
    (ofBlock enabled line insideLink block).1 ≠ some (.block "frontmatter" text names start) := by
  cases block with
  | leaf raw content =>
      cases content with
      | frontMatter => cases other
      | html text =>
          simp only [ofBlock]
          split
          · simp
          · simp [Leaf.kind]
      | _ => simp [ofBlock, Leaf.admonition?, Leaf.kind]
  | directive raw opened body =>
      simp only [ofBlock]
      split <;> simp
  | quote | list => simp [ofBlock]

theorem kind_of_other_blocks (enabled : List Extension) (line : Nat) (insideLink : Bool)
    {blocks : List Block} (others : ∀ block ∈ blocks, block.frontMatter? = none)
    {text : Option Text} {names : List Text} {start : Nat} :
    .block "frontmatter" text names start ∉ (ofBlocks enabled line insideLink blocks).1 := by
  induction blocks generalizing line insideLink with
  | nil => exact List.not_mem_nil
  | cons block blocks induction =>
      rw [List.forall_mem_cons] at others
      rw [of_blocks_cons, List.mem_append, Option.mem_toList, not_or]
      exact ⟨kind_of_other_block enabled line insideLink others.1, induction _ _ others.2⟩

end Node

/-- The first node of a page is front matter with the lines between its two rules. -/
theorem Tree.front_matter_of_text (page : Text) : ∃ tree, Tree.ofText {} page = .ok tree ∧
    ∀ text names line, tree.nodes.head? = some (.block "frontmatter" text names line) ↔
      names = [] ∧ line = 1 ∧ ∃ found,
        FrontMatter.split? (lines (Block.source page)) = some found ∧
          text = some (joinLines found.1) := by
  refine ⟨_, Tree.of_text_severe Extension.all page, fun text names line => ?_⟩
  have other {blocks : List Block} (others : ∀ block ∈ blocks, block.frontMatter? = none) :
      (Node.ofBlocks Extension.all 1 false blocks).1.head? ≠
        some (.block "frontmatter" text names line) := fun head =>
    Node.kind_of_other_blocks Extension.all 1 false others (List.mem_of_mem_head? head)
  obtain ⟨count, blocks | ⟨empty, none⟩⟩ := Block.front_matter_of_text page
  · cases found : FrontMatter.split? (lines (Block.source page)) with
    | none =>
        have others : ∀ block ∈ Block.ofText Extension.all page, block.frontMatter? = none := by
          intro block member
          have inside := List.mem_map_of_mem (f := Block.frontMatter?) member
          rw [blocks, found] at inside
          rcases List.mem_cons.mp inside with same | later
          · exact same
          · exact List.eq_of_mem_replicate later
        exact ⟨fun head => absurd head (other others), fun ⟨_, _, _, present, _⟩ => by cases present⟩
    | some parts =>
        cases read : Block.ofText Extension.all page with
        | nil =>
            rw [read] at blocks
            cases blocks
        | cons block more =>
            rw [read, found, List.map_cons, List.cons.injEq] at blocks
            have node := Node.front_matter_of_block Extension.all 1 false blocks.1
            rw [Node.of_blocks_cons, node]
            simp only [Option.toList_some, List.cons_append, List.head?_cons, Option.some.injEq,
              Node.block.injEq, true_and]
            exact ⟨fun ⟨text, names, line⟩ => ⟨names.symm, line.symm, parts, rfl, text.symm⟩,
              fun ⟨names, line, _, same, text⟩ => ⟨same ▸ text.symm, names.symm, line.symm⟩⟩
  · rw [empty, none]
    exact ⟨fun head => (by cases head), fun ⟨_, _, _, present, _⟩ => by cases present⟩

end LessonBook
