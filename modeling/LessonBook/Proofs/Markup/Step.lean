import LessonBook.Proofs.Markup.DirectiveShape
import LessonBook.Proofs.Markup.ElementRemainder

/-!
What one step of reading blocks can do: it adds a block that it read from the
front of the text, or it takes space, or it goes on with the paragraph in front.
Nothing but the step for space reads a text that begins with a newline.
-/

namespace LessonBook.BlockReader

open Text Recognizer

def IsFresh (colonFence : Bool) (inner : Inner) (progress : Progress) (text rest : Text) :
    Block → Prop
  | .leaf _ content => content ≠ .space
  | .directive _ directive body =>
      Directive.read? colonFence text = some (directive, rest) ∧
        body = if isAdmonitionName directive.name then inner progress.paragraphs directive.body
          else []
  | .quote .. | .list .. => True

inductive Advance (colonFence : Bool) (inner : Inner) (progress : Progress) (text : Text) :
    Progress → Text → Prop
  | pushed {next : Progress} {rest : Text} (block : Block)
      (blocks : next.blocks = block :: progress.blocks) (taken : block.raw ++ rest = text)
      (fresh : IsFresh colonFence inner progress text rest block)
      (plain : text.head? ≠ some '\n') : Advance colonFence inner progress text next rest
  | space {rest : Text} (raw : Text) (taken : raw ++ rest = text) (present : raw ≠ [])
      (blank : ∀ c ∈ raw, c = ' ' ∨ c = '\n') (ends : rest = [] ∨ raw.getLast? = some '\n')
      (step : spaceStep progress text = some (progress.addSpace raw, rest)) :
      Advance colonFence inner progress text (progress.addSpace raw) rest
  | joined {next : Progress} {rest : Text} (front raw : Text) (leaf extended : Leaf)
      (earlier : List Block) (blocks : progress.blocks = .leaf front leaf :: earlier)
      (blocks' : next.blocks = .leaf (front ++ '\n' :: raw) extended :: earlier)
      (notSpace : leaf ≠ .space ∧ extended ≠ .space) (taken : raw ++ rest = text)
      (refused : spaceStep progress text = none)
      (prose : ∃ text, extended = .paragraph text ∨ extended = .line text) :
      Advance colonFence inner progress text next rest

variable {colonFence : Bool} {inner : Inner} {progress next : Progress} {text rest : Text}

theorem first_step_mem {some' : List Step}
    (found : firstStep progress text some' = some (next, rest)) :
    ∃ step ∈ some', step progress text = some (next, rest) := by
  induction some' with
  | nil => cases found
  | cons step others induction =>
      rw [firstStep] at found
      split at found
      · rename_i result taken
        cases found
        exact ⟨step, by simp, taken⟩
      · obtain ⟨later, member, taken⟩ := induction found
        exact ⟨later, by simp [member], taken⟩

theorem first_step_split {front back : List Step} {step : Step}
    (found : firstStep progress text (front ++ step :: back) = some (next, rest)) :
    (∃ early ∈ front, early progress text = some (next, rest)) ∨
      step progress text = some (next, rest) ∨
      (step progress text = none ∧ firstStep progress text back = some (next, rest)) := by
  induction front with
  | nil =>
      rw [List.nil_append, firstStep] at found
      split at found
      · rename_i result taken
        cases found
        exact .inr (.inl taken)
      · exact .inr (.inr ⟨‹_›, found⟩)
  | cons early front induction =>
      rw [List.cons_append, firstStep] at found
      split at found
      · rename_i result taken
        cases found
        exact .inl ⟨early, by simp, taken⟩
      · rcases induction found with ⟨other, member, taken⟩ | others
        · exact .inl ⟨other, by simp [member], taken⟩
        · exact .inr others

theorem push_leaf_advance (left : rest <:+ text) {content : Leaf} (notSpace : content ≠ .space)
    (plain : text.head? ≠ some '\n')
    (blocks : next.blocks = .leaf (before text rest) content :: progress.blocks) :
    Advance colonFence inner progress text next rest :=
  .pushed (.leaf (before text rest) content) blocks (before_append_rest left) notSpace plain

theorem leaf_step_eq_some {Content : Type} {read : Text → Option (Content × Text)}
    {leaf : Content → Leaf} (taken : leafStep read leaf progress text = some (next, rest)) :
    ∃ content, read text = some (content, rest) ∧
      next = progress.pushLeaf (before text rest) (leaf content) := by
  simp only [leafStep, Option.bind_eq_bind, Option.bind_eq_some_iff, Option.some.injEq,
    Prod.mk.injEq] at taken
  obtain ⟨⟨content, after⟩, found, rfl, rfl⟩ := taken
  exact ⟨content, found, rfl⟩

theorem leaf_step_advance {Content : Type} {read : Text → Option (Content × Text)}
    {leaf : Content → Leaf} (leaves : ∀ {text content rest}, read text = some (content, rest) →
      rest <:+ text) (notSpace : ∀ content, leaf content ≠ .space)
    (plain : text.head? ≠ some '\n')
    (taken : leafStep read leaf progress text = some (next, rest)) :
    Advance colonFence inner progress text next rest := by
  obtain ⟨content, found, rfl⟩ := leaf_step_eq_some taken
  exact push_leaf_advance (leaves found) (notSpace content) plain rfl

theorem of_when {enabled : Bool} {step : Step}
    (taken : when enabled step progress text = some (next, rest)) :
    step progress text = some (next, rest) := by
  simp only [when] at taken
  split at taken
  · exact taken
  · cases taken

/-- Space lines hold nothing but spaces and newlines, and end with a newline or
with the text; `blank` is the part of a line that was passed over already. -/
theorem space_lines_split {lineStart : Text} (blank : Text) (split : lineStart = blank ++ text)
    (blanks : ∀ c ∈ blank, c = ' ' ∨ c = '\n') : ∃ raw,
      raw ++ spaceLinesFrom lineStart text = lineStart ∧ (∀ c ∈ raw, c = ' ' ∨ c = '\n') ∧
        (raw = [] ∨ spaceLinesFrom lineStart text = [] ∨ raw.getLast? = some '\n') := by
  induction text generalizing lineStart blank with
  | nil => exact ⟨blank, by simpa [spaceLinesFrom] using split.symm, blanks, .inr (.inl rfl)⟩
  | cons c text induction =>
      rw [spaceLinesFrom]
      split
      · rename_i space
        apply induction (blank ++ [c]) (by simp [split])
        intro d member
        rcases List.mem_append.mp member with member | member
        · exact blanks d member
        · rw [List.mem_singleton.mp member]
          exact .inl (by simpa using space)
      · split
        · rename_i newline
          have same : c = '\n' := by simpa using newline
          subst same
          obtain ⟨raw, whole, inside, ends⟩ := induction [] (List.nil_append text).symm (by simp)
          refine ⟨blank ++ '\n' :: raw, by simp [split, whole], fun d member => ?_, ?_⟩
          · rcases List.mem_append.mp member with member | member
            · exact blanks d member
            · rcases List.mem_cons.mp member with rfl | member
              · exact .inr rfl
              · exact inside d member
          · rcases ends with rfl | done | last
            · simp
            · exact .inr (.inl done)
            · cases raw with
              | nil => simp
              | cons e raw =>
                  rw [List.getLast?_append, List.getLast?_cons_cons, last]
                  exact .inr (.inr rfl)
        · exact ⟨[], rfl, by simp, .inl rfl⟩

theorem space_step_advance (taken : spaceStep progress text = some (next, rest)) :
    Advance colonFence inner progress text next rest := by
  have step := taken
  simp only [spaceStep] at taken
  split at taken
  · rename_i shorter
    cases taken
    obtain ⟨raw, split, blank, ends⟩ : ∃ raw, raw ++ skipSpaceLines text = text ∧
        (∀ c ∈ raw, c = ' ' ∨ c = '\n') ∧
        (raw = [] ∨ skipSpaceLines text = [] ∨ raw.getLast? = some '\n') :=
      space_lines_split [] rfl (by simp)
    have same : before text (skipSpaceLines text) = raw := before_of_split split
    have present : raw ≠ [] := by
      rintro rfl
      rw [List.nil_append] at split
      rw [split] at shorter
      exact Nat.lt_irrefl _ shorter
    rw [same] at step ⊢
    exact .space raw split present blank (ends.resolve_left present) step
  · cases taken

theorem space_step_newline (below : Text) : spaceStep progress ('\n' :: below) ≠ none := by
  have left : skipSpaceLines ('\n' :: below) <:+ below := by
    have inside : spaceLinesFrom below below <:+ below := skip_space_lines_suffix below
    exact inside
  have shorter : (skipSpaceLines ('\n' :: below)).length < ('\n' :: below).length :=
    Nat.lt_succ_of_le left.length_le
  simp only [spaceStep, if_pos shorter]
  simp

theorem plain_of_space_none (refused : spaceStep progress text = none) :
    text.head? ≠ some '\n' := by
  intro newline
  obtain ⟨below, rfl⟩ := List.head?_eq_some_iff.mp newline
  exact space_step_newline below refused

theorem add_indented_advance {raw content : Text} (taken : raw ++ rest = text)
    (refused : spaceStep progress text = none) :
    Advance colonFence inner progress text (progress.addIndented raw content) rest := by
  unfold Progress.addIndented
  split
  · rename_i front prose earlier blocks
    exact .joined front raw _ _ earlier blocks rfl ⟨by simp, by simp⟩ taken refused ⟨_, .inl rfl⟩
  · rename_i front prose earlier blocks
    exact .joined front raw _ _ earlier blocks rfl ⟨by simp, by simp⟩ taken refused ⟨_, .inr rfl⟩
  · exact .pushed (.leaf raw (.code content)) rfl taken (by simp [IsFresh])
      (plain_of_space_none refused)

theorem add_paragraph_advance {raw content : Text} {clipped : Bool} (taken : raw ++ rest = text)
    (refused : spaceStep progress text = none) :
    Advance colonFence inner progress text (progress.addParagraph raw content clipped) rest := by
  unfold Progress.addParagraph
  split
  · rename_i front prose earlier _ blocks
    exact .joined front raw _ _ earlier blocks rfl ⟨by simp, by simp⟩ taken refused ⟨_, .inl rfl⟩
  · exact .pushed (.leaf raw (.paragraph content)) rfl taken (by simp [IsFresh])
      (plain_of_space_none refused)

theorem add_line_advance {raw : Text} (taken : raw ++ rest = text)
    (refused : spaceStep progress text = none) :
    Advance colonFence inner progress text (progress.addLine raw) rest := by
  unfold Progress.addLine
  split
  · rename_i front prose earlier blocks
    exact .joined front raw _ _ earlier blocks rfl ⟨by simp, by simp⟩ taken refused ⟨_, .inr rfl⟩
  · exact .pushed (.leaf raw (.line raw)) rfl taken (by simp [IsFresh])
      (plain_of_space_none refused)

theorem directive_step_eq_some
    (taken : directiveStep colonFence inner progress text = some (next, rest)) :
    ∃ directive, Directive.read? colonFence text = some (directive, rest) ∧
      next = { progress.push (.directive (before text rest) directive
          (if isAdmonitionName directive.name then inner progress.paragraphs directive.body
            else [])) with
        paragraphs := isAdmonitionName directive.name || progress.paragraphs } := by
  simp only [directiveStep, Option.bind_eq_bind, Option.bind_eq_some_iff] at taken
  obtain ⟨⟨directive, after⟩, read, taken⟩ := taken
  split at taken
  · rename_i isAdmonition
    cases taken
    exact ⟨directive, read, by rw [if_pos isAdmonition, isAdmonition, Bool.true_or]⟩
  · rename_i isOther
    cases taken
    refine ⟨directive, read, ?_⟩
    rw [if_neg isOther, Bool.eq_false_iff.mpr isOther, Bool.false_or]
    rfl

theorem directive_step_advance
    (taken : directiveStep colonFence inner progress text = some (next, rest))
    (plain : text.head? ≠ some '\n') : Advance colonFence inner progress text next rest := by
  obtain ⟨directive, read, rfl⟩ := directive_step_eq_some taken
  exact .pushed _ rfl (before_append_rest (Directive.suffix_of_read read)) ⟨read, rfl⟩ plain

theorem indented_step_eq_some (taken : indentedStep progress text = some (next, rest)) :
    ∃ content, IndentedCode.read? text = some (content, rest) ∧
      next = progress.addIndented (before text rest) content := by
  simp only [indentedStep, Option.bind_eq_bind, Option.bind_eq_some_iff, Option.some.injEq,
    Prod.mk.injEq] at taken
  obtain ⟨⟨content, after⟩, read, rfl, rfl⟩ := taken
  exact ⟨content, read, rfl⟩

theorem indented_step_advance (taken : indentedStep progress text = some (next, rest))
    (refused : spaceStep progress text = none) :
    Advance colonFence inner progress text next rest := by
  obtain ⟨content, read, rfl⟩ := indented_step_eq_some taken
  exact add_indented_advance (before_append_rest (IndentedCode.suffix_of_read read)) refused

theorem rule_step_eq_some (taken : ruleStep progress text = some (next, rest)) :
    ThematicBreak.read? text = some rest ∧
      next = progress.pushLeaf (before text rest) .thematicBreak := by
  simp only [ruleStep, Option.bind_eq_bind, Option.bind_eq_some_iff, Option.some.injEq,
    Prod.mk.injEq] at taken
  obtain ⟨after, read, rfl, rfl⟩ := taken
  exact ⟨read, rfl⟩

theorem rule_step_advance (taken : ruleStep progress text = some (next, rest))
    (plain : text.head? ≠ some '\n') : Advance colonFence inner progress text next rest := by
  obtain ⟨read, rfl⟩ := rule_step_eq_some taken
  exact push_leaf_advance (ThematicBreak.consumes_of_read read).suffix (by simp) plain rfl

theorem quote_step_eq_some (taken : quoteStep inner progress text = some (next, rest)) :
    ∃ content, Quote.read? text = some (content, rest) ∧
      next = progress.push (.quote (before text rest) content (inner true content)) := by
  simp only [quoteStep, Option.bind_eq_bind, Option.bind_eq_some_iff, Option.some.injEq,
    Prod.mk.injEq] at taken
  obtain ⟨⟨content, after⟩, read, rfl, rfl⟩ := taken
  exact ⟨content, read, rfl⟩

theorem quote_step_advance (taken : quoteStep inner progress text = some (next, rest))
    (plain : text.head? ≠ some '\n') : Advance colonFence inner progress text next rest := by
  obtain ⟨content, read, rfl⟩ := quote_step_eq_some taken
  have split := before_append_rest (Quote.consumes_of_read read).suffix
  exact .pushed (.quote _ content _) rfl split trivial plain

theorem list_step_eq_some {checkBoxes : Bool}
    (taken : listStep checkBoxes inner progress text = some (next, rest)) :
    ∃ contents, ListItem.readList? checkBoxes text = some (contents, rest) ∧
      next = { progress.push (.list (before text rest) (contents.map (inner false))) with
        paragraphs := true } := by
  simp only [listStep, Option.bind_eq_bind, Option.bind_eq_some_iff, Option.some.injEq,
    Prod.mk.injEq] at taken
  obtain ⟨⟨contents, after⟩, read, rfl, rfl⟩ := taken
  exact ⟨contents, read, rfl⟩

theorem list_step_advance {checkBoxes : Bool}
    (taken : listStep checkBoxes inner progress text = some (next, rest))
    (plain : text.head? ≠ some '\n') : Advance colonFence inner progress text next rest := by
  obtain ⟨contents, read, rfl⟩ := list_step_eq_some taken
  exact .pushed (.list _ _) rfl (before_append_rest (ListItem.suffix_of_read_list read)) trivial
    plain

theorem html_step_eq_some (taken : htmlStep progress text = some (next, rest)) :
    Html.read? text = some rest ∧
      next = progress.pushLeaf (before text rest) (.html (before text rest)) := by
  simp only [htmlStep, Option.bind_eq_bind, Option.bind_eq_some_iff, Option.some.injEq,
    Prod.mk.injEq] at taken
  obtain ⟨after, read, rfl, rfl⟩ := taken
  exact ⟨read, rfl⟩

theorem html_step_advance (taken : htmlStep progress text = some (next, rest))
    (plain : text.head? ≠ some '\n') : Advance colonFence inner progress text next rest := by
  obtain ⟨read, rfl⟩ := html_step_eq_some taken
  exact push_leaf_advance (Html.consumes_of_read read).suffix (by simp) plain rfl

/-- A paragraph is read from what is visible of the text, the part up to the first interruption. -/
theorem paragraph_step_eq_some {enabled : List Extension}
    (taken : paragraphStep enabled progress text = some (next, rest)) :
    ∃ visible raw left,
      (visible = text ∨ ∃ index, interruption? enabled (text.drop 1) = some index ∧
        visible = text.take (index + 1)) ∧
      Paragraph.rest? (Extension.enablesTables enabled) visible = some left ∧
      raw ++ left = visible ∧ rest = text.drop raw.length ∧
      next = progress.addParagraph raw (withoutLastNewline raw) (visible.length != text.length) := by
  simp only [paragraphStep] at taken
  split at taken
  · cases taken
  · simp only [Option.bind_eq_bind, Option.bind_eq_some_iff, Option.some.injEq,
      Prod.mk.injEq] at taken
    obtain ⟨left, read, made, same⟩ := taken
    have split := before_append_rest (Paragraph.suffix_of_rest read)
    refine ⟨_, _, left, ?_, read, split, same.symm, made.symm⟩
    cases cut : interruption? enabled (text.drop 1) with
    | none => exact .inl rfl
    | some index => exact .inr ⟨index, rfl, rfl⟩

theorem paragraph_step_advance {enabled : List Extension}
    (taken : paragraphStep enabled progress text = some (next, rest))
    (refused : spaceStep progress text = none) :
    Advance colonFence inner progress text next rest := by
  obtain ⟨visible, raw, left, shown, -, split, rfl, rfl⟩ := paragraph_step_eq_some taken
  refine add_paragraph_advance ?_ refused
  rw [← List.prefix_iff_eq_append]
  rcases shown with rfl | ⟨index, -, rfl⟩
  · exact ⟨left, split⟩
  · exact List.IsPrefix.trans ⟨left, split⟩ (List.take_prefix _ text)

theorem line_step_advance (taken : lineStep progress text = some (next, rest))
    (refused : spaceStep progress text = none) :
    Advance colonFence inner progress text next rest := by
  simp only [lineStep] at taken
  split at taken
  · cases taken
  · cases taken
    refine add_line_advance ?_ refused
    rw [← List.prefix_iff_eq_append]
    exact List.takeWhile_prefix notNewline

theorem front_matter_step_advance (taken : frontMatterStep progress text = some (next, rest))
    (plain : text.head? ≠ some '\n') : Advance colonFence inner progress text next rest := by
  simp only [frontMatterStep] at taken
  split at taken
  · exact leaf_step_advance (fun read => (FrontMatter.consumes_of_read read).suffix)
      (by simp) plain taken
  · cases taken

def earlySteps (enabled : List Extension) (inner : Inner) : List Step :=
  [ when (enabled.contains .htmlImage)
      (leafStep ImageElement.read? fun (source, alternative) => .image source alternative),
    when (enabled.contains .fieldlist) (leafStep FieldList.read? .fields),
    when (enabled.contains .deflist)
      (leafStep DefinitionList.read? fun (term, definitions) => .definitions term definitions),
    when (enabled.contains .amsmath) (leafStep (Formula.environment? atLineEnd) Leaf.formula),
    when (enabled.contains .dollarmath) (leafStep (Formula.dollar? atLineEnd) Leaf.formula),
    directiveStep (enabled.contains .colonFence) inner,
    frontMatterStep ]

def lateSteps (enabled : List Extension) (inner : Inner) : List Step :=
  let tables := Extension.enablesTables enabled
  [ indentedStep,
    leafStep FencedCode.read? .code,
    leafStep Heading.read? .heading,
    ruleStep,
    quoteStep inner,
    listStep tables inner,
    htmlStep,
    when tables (leafStep Table.read? .table),
    leafStep Heading.underlined? .heading,
    paragraphStep enabled,
    lineStep ]

theorem steps_eq (enabled : List Extension) (inner : Inner) :
    steps enabled inner = earlySteps enabled inner ++ spaceStep :: lateSteps enabled inner := rfl

theorem early_steps_newline {enabled : List Extension} (below : Text) :
    ∀ step ∈ earlySteps enabled inner, step progress ('\n' :: below) = none := by
  have image : ImageElement.read? ('\n' :: below) = none := rfl
  have fields : FieldList.read? ('\n' :: below) = none := rfl
  have definitions : DefinitionList.read? ('\n' :: below) = none := rfl
  have environment : Formula.environment? atLineEnd ('\n' :: below) = none := rfl
  have dollar : Formula.dollar? atLineEnd ('\n' :: below) = none := rfl
  have directive (colonFence : Bool) : Directive.read? colonFence ('\n' :: below) = none := rfl
  have frontMatter : FrontMatter.read? ('\n' :: below) = none := rfl
  simp [earlySteps, when, leafStep, directiveStep, frontMatterStep, image, fields, definitions,
    environment, dollar, directive, frontMatter]

theorem early_step_advance {enabled : List Extension} {step : Step}
    (member : step ∈ earlySteps enabled inner) (taken : step progress text = some (next, rest)) :
    Advance (enabled.contains .colonFence) inner progress text next rest := by
  have plain : text.head? ≠ some '\n' := by
    intro newline
    obtain ⟨below, rfl⟩ := List.head?_eq_some_iff.mp newline
    rw [early_steps_newline below step member] at taken
    cases taken
  simp only [earlySteps, List.mem_cons, List.not_mem_nil, or_false] at member
  rcases member with rfl | rfl | rfl | rfl | rfl | rfl | rfl
  · exact leaf_step_advance (fun read => (ImageElement.consumes_of_read read).suffix)
      (by simp) plain (of_when taken)
  · exact leaf_step_advance (fun read => (FieldList.consumes_of_read read).suffix)
      (by simp) plain (of_when taken)
  · exact leaf_step_advance (fun read => (DefinitionList.consumes_of_read read).suffix)
      (by simp) plain (of_when taken)
  · exact leaf_step_advance (fun read => (Formula.consumes_of_environment read).suffix)
      (by simp) plain (of_when taken)
  · exact leaf_step_advance (fun read => (Formula.consumes_of_dollar read).suffix)
      (by simp) plain (of_when taken)
  · exact directive_step_advance taken plain
  · exact front_matter_step_advance taken plain

theorem late_step_advance {enabled : List Extension} {step : Step}
    (member : step ∈ lateSteps enabled inner) (taken : step progress text = some (next, rest))
    (refused : spaceStep progress text = none) :
    Advance (enabled.contains .colonFence) inner progress text next rest := by
  have plain := plain_of_space_none refused
  simp only [lateSteps, List.mem_cons, List.not_mem_nil, or_false] at member
  rcases member with rfl | rfl | rfl | rfl | rfl | rfl | rfl | rfl | rfl | rfl | rfl
  · exact indented_step_advance taken refused
  · exact leaf_step_advance (fun read => (FencedCode.consumes_of_read read).suffix)
      (by simp) plain taken
  · exact leaf_step_advance (fun read => (Heading.consumes_of_read read).suffix)
      (by simp) plain taken
  · exact rule_step_advance taken plain
  · exact quote_step_advance taken plain
  · exact list_step_advance taken plain
  · exact html_step_advance taken plain
  · exact leaf_step_advance (fun read => (Table.consumes_of_read read).suffix) (by simp) plain
      (of_when taken)
  · exact leaf_step_advance Heading.suffix_of_underlined (by simp) plain taken
  · exact paragraph_step_advance taken refused
  · exact line_step_advance taken refused

/-- Whatever kind of block a step reads, it advances in one of these ways. -/
theorem first_step_advance {enabled : List Extension}
    (found : firstStep progress text (steps enabled inner) = some (next, rest)) :
    Advance (enabled.contains .colonFence) inner progress text next rest := by
  rw [steps_eq] at found
  rcases first_step_split found with ⟨step, member, taken⟩ | taken | ⟨refused, later⟩
  · exact early_step_advance member taken
  · exact space_step_advance taken
  · obtain ⟨step, member, taken⟩ := first_step_mem later
    exact late_step_advance member taken refused

end LessonBook.BlockReader
