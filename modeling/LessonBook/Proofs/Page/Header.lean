import LessonBook.Proofs.Markup.FrontMatter
import LessonBook.Proofs.Notebook.Stretches
import LessonBook.Proofs.Text.TabExpansion

/-!
The header of a page is read twice: as front matter, when the page is read as
markup, and as the header of the notebook. The two take the same lines unless
the rules of one see another end of it, or none.
-/

namespace LessonBook

open Text BlockReader

namespace Header

theorem all_of_delimiter {line : Text} (delimiter : isDelimiter line = true) :
    ∀ c ∈ line, c = '-' ∨ isSpaceOrTab c = true := by
  rw [isDelimiter, Bool.and_eq_true, startsWith, List.isPrefixOf_iff_prefix] at delimiter
  obtain ⟨⟨rest, rfl⟩, blanks⟩ := delimiter
  intro c member
  rcases List.mem_append.mp member with dash | blank
  · exact .inl (List.eq_of_mem_replicate (n := 3) dash)
  · exact .inr (List.all_eq_true.mp blanks c blank)

theorem expand_of_unbroken {text : Text} (unbroken : ∀ c ∈ text, isTerminator c = false) :
    expandTabs false false text = text := by
  induction text with
  | nil => rfl
  | cons c text induction =>
      rw [List.forall_mem_cons] at unbroken
      simp [expandTabs, unbroken.1, induction unbroken.2]

theorem mem_expand {c : Char} {text : Text} (leading inTabs : Bool) (member : c ∈ text)
    (other : c ≠ '\t') : c ∈ expandTabs leading inTabs text := by
  induction text generalizing leading inTabs with
  | nil => cases member
  | cons d text induction =>
      rw [expandTabs]
      rcases List.mem_cons.mp member with rfl | member
      · rw [if_neg (by simp [other])]
        split <;> simp
      · split
        · exact List.mem_append_right _ (induction _ _ member)
        · split <;> exact List.mem_cons_of_mem _ (induction _ _ member)

/-- Writing leading tabs as spaces makes no line a delimiter, and changes none. -/
theorem is_delimiter_expand (line : Text) :
    isDelimiter (expandLeadingTabs line) = isDelimiter line := by
  have unbroken_of {line : Text} (delimiter : isDelimiter line = true) :
      ∀ c ∈ line, isTerminator c = false := by
    intro c member
    rcases all_of_delimiter delimiter c member with rfl | blank
    · rfl
    · simp only [isSpaceOrTab, Bool.or_eq_true, beq_iff_eq] at blank
      rcases blank with rfl | rfl <;> rfl
  cases line with
  | nil => rfl
  | cons c rest =>
      by_cases dash : c = '-'
      · subst dash
        have expanded : expandLeadingTabs ('-' :: rest) = '-' :: expandTabs false false rest := rfl
        by_cases unbroken : ∀ d ∈ rest, isTerminator d = false
        · rw [expanded, expand_of_unbroken unbroken]
        · simp only [not_forall, Bool.not_eq_false] at unbroken
          obtain ⟨d, member, terminator⟩ := unbroken
          have refused {line : Text} (inside : d ∈ line) : isDelimiter line = false := by
            cases delimiter : isDelimiter line with
            | false => rfl
            | true =>
                rw [unbroken_of delimiter d inside] at terminator
                cases terminator
          have noTab : d ≠ '\t' := by
            rintro rfl
            cases terminator
          rw [expanded, refused (List.mem_cons_of_mem _ (mem_expand false false member noTab)),
            refused (List.mem_cons_of_mem _ member)]
      · have refused {d : Char} (other : d ≠ '-') (text : Text) : isDelimiter (d :: text) = false := by
          have unequal : ('-' == d) = false := beq_eq_false_iff_ne.mpr (Ne.symm other)
          simp [isDelimiter, delimiter, startsWith, List.isPrefixOf, unequal]
        rw [refused dash, expandLeadingTabs, expandTabs]
        split
        · exact refused (by decide) _
        · split <;> exact refused dash _

/-- Where the header ends does not depend on such tabs. -/
theorem split_expand (pageLines : List Text) :
    (split? (pageLines.map expandLeadingTabs)).map (fun found => found.1.length) =
      (split? pageLines).map fun found => found.1.length := by
  have same : isDelimiter ∘ expandLeadingTabs = isDelimiter := funext is_delimiter_expand
  have others : (!isDelimiter ·) ∘ expandLeadingTabs = (!isDelimiter ·) :=
    funext fun line => congrArg not (is_delimiter_expand line)
  cases pageLines with
  | nil => rfl
  | cons first rest =>
      rw [List.map_cons, split?, split?, is_delimiter_expand, List.any_map, same]
      split
      · simp [List.takeWhile_map, others]
      · rfl

end Header

namespace Page

/-- Read as markup, the page begins with front matter on the lines from the first
one to `last`: the two rules and the text of the block between them. -/
def FrontMatterTo (page : Text) (last : Nat) : Prop :=
  ∃ tree opening inner closing below names others, Tree.ofText {} page = .ok tree ∧
    lines (Block.source page) = opening :: (inner ++ closing :: below) ∧
    Header.isDelimiter opening = true ∧ FrontMatter.endsAt closing = true ∧
    last = inner.length + 2 ∧
    tree.nodes = .block "frontmatter" (some (joinLines inner)) names 1 :: others

/-- Read as a notebook, the page has its header on the lines from the first one
to `last`, the closing delimiter. -/
def HeaderTo (page : Text) (last : Nat) : Prop :=
  ∃ header body, Header.split? (Notebook.documentLines page) = some (header, body) ∧
    last = header.length + 2

/-- The two readings see one end: the closing delimiter comes behind the second
line, which is no definition, and no dots come before it; or there is no end for
either. -/
def OneHeader : List Text → Prop
  | first :: second :: others => Header.isDelimiter first = true →
      if (second :: others).any Header.isDelimiter then
        FrontMatter.isDefinition second = false ∧ Header.isDelimiter second = false ∧
          ∀ line ∈ others.takeWhile (!Header.isDelimiter ·), FrontMatter.isDots line = false
      else FrontMatter.isDefinition second = true ∨ ∀ line ∈ others, FrontMatter.isDots line = false
  | _ => True

theorem header_to_iff (page : Text) (last : Nat) : HeaderTo page last ↔
    (Header.split? (lines (Block.source page))).map (fun found => found.1.length) =
      some (last - 2) ∧ 2 ≤ last := by
  have cut : lines (Block.source page) = (Notebook.documentLines page).map expandLeadingTabs :=
    lines_expand (normalizeLineEnds page)
  rw [cut, Header.split_expand, HeaderTo, Option.map_eq_some_iff]
  constructor
  · rintro ⟨header, body, found, rfl⟩
    exact ⟨⟨_, found, rfl⟩, Nat.le_add_left 2 _⟩
  · rintro ⟨⟨found, split, length⟩, bound⟩
    exact ⟨found.1, found.2, split, by omega⟩

theorem front_matter_to_iff (page : Text) (last : Nat) : FrontMatterTo page last ↔
    (FrontMatter.split? (lines (Block.source page))).map (fun found => found.1.length) =
      some (last - 2) ∧ 2 ≤ last := by
  obtain ⟨tree, read, heads⟩ := Tree.front_matter_of_text page
  have single : ∀ line ∈ lines (Block.source page), '\n' ∉ line := fun line => no_newline_of_mem_lines
  constructor
  · rintro ⟨_, opening, inner, closing, below, names, others, read', cut, -, ends, rfl, nodes⟩
    rw [read, Except.ok.injEq] at read'
    subst read'
    obtain ⟨-, -, found, split, text⟩ := (heads (some (joinLines inner)) names 1).mp
      (by rw [nodes]; rfl)
    refine ⟨?_, Nat.le_add_left 2 _⟩
    rw [split, Option.map_some, Nat.add_sub_cancel]
    obtain ⟨_, second, middle, _, cut', taken, -⟩ := FrontMatter.split_eq_some_iff.mp split
    rw [Option.some.injEq, taken] at text
    have takenSingle := single
    rw [cut', List.forall_mem_cons] at takenSingle
    rw [cut, List.forall_mem_cons, List.forall_mem_append] at single
    cases inner with
    | nil =>
        -- the text is empty, so the second line is, and that closes nothing
        rw [cut', List.nil_append, List.cons.injEq, List.cons.injEq] at cut
        obtain ⟨-, rfl, -⟩ := cut
        have empty : joinLines (second :: middle) = [] := text.symm
        rw [join_lines_cons, List.append_eq_nil_iff] at empty
        rw [empty.1] at ends
        cases ends
    | cons line inner =>
        have middleSingle : ∀ other ∈ second :: middle, '\n' ∉ other := fun other member =>
          takenSingle.2 other (List.mem_append_left _ member)
        have same := congrArg lines text
        rw [lines_join_lines (List.cons_ne_nil line inner) single.2.1,
          lines_join_lines (List.cons_ne_nil second middle) middleSingle] at same
        rw [taken, same]
  · rintro ⟨found, bound⟩
    obtain ⟨parts, split, length⟩ := Option.map_eq_some_iff.mp found
    obtain ⟨opening, second, middle, closing, cut, taken, delimiter, -, -, ends⟩ :=
      FrontMatter.split_eq_some_iff.mp split
    have head := (heads (some (joinLines parts.1)) [] 1).mpr ⟨rfl, rfl, parts, split, rfl⟩
    obtain ⟨others, nodes⟩ := List.head?_eq_some_iff.mp head
    refine ⟨tree, opening, parts.1, closing, parts.2, [], others, read, ?_, delimiter, ends, ?_, nodes⟩
    · rw [cut, taken]
      rfl
    · omega

/-- The search for dashes alone goes further than the search for dashes or dots
exactly where it passes dots. -/
theorem same_reach_iff (others : List Text) :
    (others.takeWhile (!FrontMatter.endsAt ·)).length =
        (others.takeWhile (!Header.isDelimiter ·)).length ↔
      ∀ line ∈ others.takeWhile (!Header.isDelimiter ·), FrontMatter.isDots line = false := by
  induction others with
  | nil => simp
  | cons line others induction =>
      cases delimiter : Header.isDelimiter line with
      | true => simp [FrontMatter.endsAt, delimiter]
      | false =>
          cases dots : FrontMatter.isDots line with
          | true => simp [FrontMatter.endsAt, delimiter, dots]
          | false => simpa [FrontMatter.endsAt, delimiter, dots] using induction

theorem same_length_iff (pageLines : List Text) :
    ((FrontMatter.split? pageLines).map fun found => found.1.length) =
        ((Header.split? pageLines).map fun found => found.1.length) ↔ OneHeader pageLines := by
  match pageLines with
  | [] => simp [FrontMatter.split?, Header.split?, OneHeader]
  | [line] => simp [FrontMatter.split?, Header.split?, OneHeader]
  | first :: second :: others =>
      rw [FrontMatter.split?, Header.split?, OneHeader]
      cases Header.isDelimiter first with
      | false => simp
      | true =>
          simp only [Bool.true_and, true_implies]
          by_cases present : (second :: others).any Header.isDelimiter = true
          · rw [if_pos present, if_pos present]
            cases defines : FrontMatter.isDefinition second with
            | true => simp
            | false =>
                cases delimiter : Header.isDelimiter second with
                | true =>
                    by_cases ends : others.any FrontMatter.endsAt = true <;> simp [ends, delimiter]
                | false =>
                    have ends : others.any FrontMatter.endsAt = true := by
                      rw [List.any_cons, delimiter, Bool.false_or] at present
                      obtain ⟨line, member, closes⟩ := List.any_eq_true.mp present
                      exact List.any_eq_true.mpr ⟨line, member, by simp [FrontMatter.endsAt, closes]⟩
                    simpa [ends, delimiter] using same_reach_iff others
          · rw [if_neg present, if_neg present]
            have same : others.any FrontMatter.endsAt = others.any FrontMatter.isDots := by
              rw [List.any_cons, Bool.or_eq_true, not_or, List.any_eq_true] at present
              rw [Bool.eq_iff_iff, List.any_eq_true, List.any_eq_true]
              refine exists_congr fun line => and_congr_right fun member => ?_
              have other : ¬Header.isDelimiter line = true := fun closes =>
                present.2 ⟨line, member, closes⟩
              simp [FrontMatter.endsAt, other]
            rw [same]
            cases FrontMatter.isDefinition second with
            | true => simp
            | false => by_cases dots : others.any FrontMatter.isDots = true <;> simp_all

/-- The two readings of the header agree on every line, or on none of its ends,
exactly where the lines of the page have one end of the header. -/
theorem front_matter_is_header_iff (page : Text) :
    (∀ last, FrontMatterTo page last ↔ HeaderTo page last) ↔
      OneHeader (lines (Block.source page)) := by
  rw [← same_length_iff]
  simp only [front_matter_to_iff, header_to_iff]
  constructor
  · intro agree
    refine Option.ext fun length => ?_
    simpa using agree (length + 2)
  · intro same last
    rw [same]

/-- An empty header, and a rule further down: as markup the page is front matter
up to the rule. -/
theorem front_matter_behind_header :
    let page := "---\n---\n:::\x7bnote\x7d\nx\n:::\n\n---\n".toList
    HeaderTo page 2 ∧ FrontMatterTo page 7 ∧ ¬FrontMatterTo page 2 := by
  intro page
  rw [header_to_iff, front_matter_to_iff, front_matter_to_iff]
  decide +kernel

end Page

end LessonBook
