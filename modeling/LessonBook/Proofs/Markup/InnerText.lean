import LessonBook.Proofs.Markup.BlockBoundary
import LessonBook.Proofs.Markup.DirectiveShape

/-!
The texts inside of a directive, a quote and the items of a list are lighter
than the text from which the block was read.
-/

namespace LessonBook

open Text Recognizer

namespace Directive

variable {text rest : Text} {colonFence : Bool} {directive : Directive} {opening : Opening}

theorem consumes_of_opening (read : opening? text = some (opening, rest)) : Consumes text rest := by
  simp only [opening?, Option.bind_eq_bind, Option.bind_eq_some_iff] at read
  obtain ⟨mark, head, read⟩ := read
  obtain ⟨inside, fenced⟩ := List.head?_eq_some_iff.mp head
  split at read
  · cases read
  · split at read
    · cases read
    · simp only [Option.bind_eq_some_iff] at read
      obtain ⟨named, brace, read⟩ := read
      split at read
      · cases read
      · simp only [Option.bind_eq_some_iff, Option.some.injEq, Prod.mk.injEq] at read
        obtain ⟨args, closing, after, ended, -, rfl⟩ := read
        have left : after <:+ args := (suffix_of_line_end ended).trans (after_first_line_suffix args)
        exact ((consumes_of_char (by decide) brace).of_suffix <| (List.dropWhile_suffix _).trans <|
          (List.dropWhile_suffix _).trans (indent_suffix text)).trans_suffix <|
          left.trans <| (suffix_of_char closing).trans (List.dropWhile_suffix _)

/-- The body of a directive is a part of what follows its opening line. -/
theorem body_sublist (read : read? colonFence text = some (directive, rest)) :
    ∃ opening below, opening? text = some (opening, below) ∧ directive.body.Sublist below := by
  simp only [read?, Option.bind_eq_bind, Option.bind_eq_some_iff] at read
  obtain ⟨⟨opening, below⟩, opened, read⟩ := read
  refine ⟨opening, below, opened, ?_⟩
  split at read
  · cases read
  · split at read
    · rename_i body after found
      cases read
      split at found
      · obtain ⟨last, cut, -⟩ := split_at_line_eq_some found
        have whole := join_lines_of_lines below
        rw [cut] at whole
        cases body with
        | nil => exact List.nil_sublist below
        | cons line body =>
            rw [List.cons_append, join_lines_cons, lines_below_append, ← List.append_assoc,
              ← join_lines_cons line body] at whole
            have part := List.sublist_append_left (joinLines (line :: body)) (linesBelow (last :: after))
            rwa [whole] at part
      · cases found
    · cases read
      exact List.Sublist.refl _

theorem body_lighter (read : read? colonFence text = some (directive, rest)) :
    weight directive.body < weight text := by
  obtain ⟨opening, below, opened, inside⟩ := body_sublist read
  exact Nat.lt_of_le_of_lt (weight_le_of_sublist inside) (consumes_of_opening opened).lighter

theorem body_shorter (read : read? colonFence text = some (directive, rest)) :
    directive.body.length < text.length := by
  obtain ⟨opening, below, opened, inside⟩ := body_sublist read
  exact Nat.lt_of_le_of_lt inside.length_le (consumes_of_opening opened).shorter

end Directive

namespace Quote

theorem weight_protect_underlines_le (skipped : Nat) (text : Text) :
    weight (protectUnderlines skipped text) ≤ weight text := by
  induction text generalizing skipped with
  | nil => exact Nat.le_refl _
  | cons c text induction =>
      cases skipped with
      | succ count =>
          rw [protectUnderlines]
          exact (induction count).trans (weight_le_of_sublist (List.sublist_cons_self c text))
      | zero =>
          rw [protectUnderlines]
          split
          · rename_i underlined
            simp only [Bool.and_eq_true, beq_iff_eq] at underlined
            rw [underlined.1]
            have bare (rest : Text) : weight ([' ', ' ', ' ', ' '] ++ rest) = weight rest :=
              weight_spaces_append (by simp) rest
            exact weight_cons_le ((bare _).trans_le (induction _)) '\n'
          · exact weight_cons_le (induction 0) c

theorem cut_line_starts_sublist (cut : Text → Nat) (skipped : Nat) (atStart : Bool) (text : Text) :
    (cutLineStarts cut skipped atStart text).Sublist (text.drop skipped) := by
  induction text generalizing skipped atStart with
  | nil => simp [cutLineStarts]
  | cons c text induction =>
      cases skipped with
      | succ count => exact induction count false
      | zero =>
          rw [cutLineStarts, List.drop_zero]
          split
          · rename_i count _
            exact ((induction count false).trans (List.drop_sublist count text)).cons c
          · exact (induction 0 (isTerminator c)).cons_cons c

theorem cut_front_sublist (cut : Text → Nat) (text : Text) :
    (cutLineStarts cut 0 true text).Sublist (text.drop (cut text)) := by
  cases text with
  | nil => simp [cutLineStarts]
  | cons c text =>
      rw [cutLineStarts, if_pos rfl]
      cases cut (c :: text) with
      | zero => exact (cut_line_starts_sublist cut 0 (isTerminator c) text).cons_cons c
      | succ count => exact cut_line_starts_sublist cut count false text

theorem protect_underlines_spaces {spaces : Text} (blank : ∀ s ∈ spaces, s = ' ') (text : Text) :
    protectUnderlines 0 (spaces ++ text) = spaces ++ protectUnderlines 0 text := by
  induction spaces with
  | nil => rfl
  | cons s spaces induction =>
      obtain ⟨rfl, others⟩ := List.forall_mem_cons.mp blank
      rw [List.cons_append, protectUnderlines, if_neg (by simp), induction others, List.cons_append]

theorem content_lighter {spaces below : Text} (blank : ∀ s ∈ spaces, s = ' ') :
    weight (content (spaces ++ '>' :: below)) < weight (spaces ++ '>' :: below) := by
  have protect : protectUnderlines 0 (spaces ++ '>' :: below) =
      spaces ++ '>' :: protectUnderlines 0 below := by
    rw [protect_underlines_spaces blank, protectUnderlines, if_neg (by simp)]
  have marked : spaces.length + 1 ≤ markLength (spaces ++ '>' :: protectUnderlines 0 below) := by
    have skipped : skipSpaces (spaces ++ '>' :: protectUnderlines 0 below) =
        '>' :: protectUnderlines 0 below := by
      rw [skipSpaces, List.dropWhile_append_of_pos fun s member => by simp [blank s member]]
      rfl
    rw [markLength, skipped]
    simp only [List.length_append, List.length_cons]
    omega
  have inside : (content (spaces ++ '>' :: below)).Sublist (protectUnderlines 0 below) := by
    rw [content, protect]
    refine (drop_end_while_begins _ _).sublist.trans ((cut_front_sublist _ _).trans ?_)
    have behind : spaces ++ '>' :: protectUnderlines 0 below =
        (spaces ++ ['>']) ++ protectUnderlines 0 below := by simp
    obtain ⟨more, length⟩ := Nat.exists_eq_add_of_le marked
    rw [length, behind, ← List.drop_drop, List.drop_left' (by simp)]
    exact List.drop_sublist more _
  calc
    weight (content (spaces ++ '>' :: below)) ≤ weight (protectUnderlines 0 below) :=
      weight_le_of_sublist inside
    _ ≤ weight below := weight_protect_underlines_le 0 below
    _ < weight (spaces ++ '>' :: below) :=
      ((consumes_cons (by decide) below).of_suffix (List.suffix_append spaces _)).lighter

theorem content_of_read_lighter {text content rest : Text} (read : read? text = some (content, rest)) :
    weight content < weight text := by
  simp only [read?, Option.bind_eq_bind, Option.bind_eq_some_iff, Option.some.injEq,
    Prod.mk.injEq] at read
  obtain ⟨after, piece, rfl, rfl⟩ := read
  obtain ⟨behind, sign, left⟩ := piece_eq_some piece
  obtain ⟨spaces, split, -, blank⟩ := indent_split text
  have pieces := many_suffix (fun read => (consumes_of_piece read).suffix) after
  obtain ⟨below, rfl⟩ := pieces.trans left
  rw [sign, ← List.cons_append, ← List.append_assoc] at split
  have raw : before text (many piece? after) = spaces ++ '>' :: below := before_of_split split.symm
  have bound : weight (spaces ++ '>' :: below) ≤ weight text :=
    weight_le_of_sublist (split ▸ List.sublist_append_left _ _)
  rw [raw]
  exact (content_lighter blank).trans_le bound

end Quote

namespace ListItem

variable {mark : Mark} {text raw content left written rest : Text}

theorem weight_expand_tabs_le (line : Text) : weight (expandTabs line) ≤ weight line := by
  rw [expandTabs, weight_spaces_append fun s member => (List.mem_replicate.mp member).2]
  exact weight_le_of_sublist (List.dropWhile_sublist _)

/-- The text of an item and what stands below it, with the newline in front, is not
heavier than what is written behind the mark. -/
def Holds (written : Text) (item : Open) (rest : Text) : Prop :=
  ∃ tail, atLineEnd tail = true ∧ rest = tail.drop 1 ∧
    weight item.content + weight tail ≤ weight written

theorem holds_extended {item longer : Open} (present : rest ≠ [])
    (extended : extend? width item rest = some longer) (holds : Holds written item rest) :
    Holds written longer ((afterFirstLine rest).drop 1) := by
  obtain ⟨tail, ended, rfl, bound⟩ := holds
  obtain ⟨-, added, content, part⟩ := extend_eq_some extended
  rcases line_end_cases ended with rfl | ⟨below, rfl⟩
  · exact absurd rfl present
  · change added <:+ firstLine below at part
    refine ⟨afterFirstLine below, Directive.after_first_line_ends below, rfl, ?_⟩
    have line := weight_le_of_sublist part.sublist
    have whole := congrArg weight (first_line_append_after below)
    rw [weight_append] at whole
    rw [weight_newline] at bound
    rw [content, weight_append, weight_newline]
    omega

theorem content_of_item_lighter (read : read? mark text = some ((raw, content), left)) :
    weight content < weight text := by
  obtain ⟨written, rest, opened, lines⟩ := opened_of_read read
  obtain ⟨c, below, kept, marked, behind⟩ := marked_of_mark opened.marked
  have notSpace : c ≠ ' ' := by
    rintro rfl
    exact absurd kept (by decide)
  refine Nat.lt_of_le_of_lt ?_ (Consumes.lighter ⟨c, below, notSpace, marked, behind⟩)
  rcases lines with ⟨-, rfl, -⟩ | ⟨width, count, indented, item, extended, -, rfl⟩
  · exact Nat.zero_le _
  · have holds : Holds written item left := by
      refine extend_all_preserves (Holds written) holds_extended ?_ extended
      refine ⟨afterFirstLine written, Directive.after_first_line_ends written,
        after_mark_eq_some opened.below, ?_⟩
      have line := (weight_le_of_sublist (List.drop_sublist indented _)).trans
        (weight_expand_tabs_le (firstLine written))
      have whole := congrArg weight (first_line_append_after written)
      rw [weight_append] at whole
      exact (Nat.add_le_add_right line _).trans_eq whole
    obtain ⟨tail, -, -, bound⟩ := holds
    omega

theorem content_of_read_all_lighter {count : Nat} {item : Text × Text}
    (member : item ∈ readAll mark count text) : weight item.2 < weight text := by
  induction count generalizing text with
  | zero => cases member
  | succ count induction =>
      rw [readAll] at member
      split at member
      · rename_i first rest found
        rcases List.mem_cons.mp member with rfl | member
        · exact content_of_item_lighter found
        · split at member
          · cases member
          · have behind := (taken_of_read found).suffix
            exact (induction member).trans_le (weight_le_of_sublist behind.sublist)
      · cases member

theorem uncheck_suffix (content : Text) : uncheck content <:+ content := by
  unfold uncheck
  split
  · rename_i box rest
    split
    · exact (List.dropWhile_suffix _).trans (List.suffix_append ['[', box, ']', ' '] rest)
    · exact List.suffix_refl _
  · exact List.suffix_refl content

theorem content_of_read_list_lighter {checkBoxes : Bool} {contents : List Text}
    (read : readList? checkBoxes text = some (contents, rest)) (member : content ∈ contents) :
    weight content < weight text := by
  simp only [readList?, Option.bind_eq_bind, Option.bind_eq_some_iff, Option.some.injEq,
    Prod.mk.injEq] at read
  obtain ⟨mark, -, rfl, -⟩ := read
  have read {shown : Text} (shown_mem : shown ∈ (readAll mark text.length text).map
      fun item => if checkBoxes then uncheck item.2 else item.2) : weight shown < weight text := by
    obtain ⟨item, among, rfl⟩ := List.mem_map.mp shown_mem
    refine Nat.lt_of_le_of_lt ?_ (content_of_read_all_lighter among)
    split
    · exact weight_le_of_sublist (uncheck_suffix item.2).sublist
    · exact Nat.le_refl _
  rcases List.mem_append.mp member with inside | last
  · exact read (List.dropLast_subset _ inside)
  · obtain ⟨shown, found, rfl⟩ := Option.map_eq_some_iff.mp (Option.mem_toList.mp last)
    have trimmed := weight_le_of_sublist (drop_end_while_begins isBlank shown).sublist
    exact Nat.lt_of_le_of_lt trimmed (read (List.mem_of_getLast? found))

theorem opened_of_begins (begun : begins? text = some mark) :
    ∃ written rest, Opened mark text written rest := by
  simp only [begins?, Option.bind_eq_bind, Option.bind_eq_some_iff] at begun
  obtain ⟨⟨found, written⟩, marked, begun⟩ := begun
  cases written with
  | nil =>
      cases begun
      exact ⟨[], [], marked, rfl⟩
  | cons c below =>
      simp only at begun
      split at begun
      · rename_i spaced
        cases begun
        have followed : (isSpaceOrTab c || c == '\n') = true := by
          simp only [Bool.or_eq_true, Bool.and_eq_true] at spaced ⊢
          exact spaced.symm.imp And.left id
        have read : afterMark? (c :: below) = some ((afterFirstLine (c :: below)).drop 1) := by
          rw [afterMark?, if_pos followed]
          exact line_end_of_end (Directive.after_first_line_ends _)
        exact ⟨c :: below, _, marked, read⟩
      · cases begun

theorem read_of_opened (opened : Opened mark text written rest)
    (refused : ThematicBreak.read? text = none) :
    ∃ item left, read? mark text = some (item, left) ∧ before text rest <+: item.1 := by
  have item : item? mark text = some (before text written, written) := by
    simp [item?, opened.marked, opened.below]
  simp only [read?, refused, item, opened.below, Option.isSome_none, Bool.false_eq_true, if_false,
    Option.bind_eq_bind, Option.bind_some]
  split
  · exact ⟨_, _, rfl, by simp⟩
  · refine ⟨_, _, rfl, ?_⟩
    refine extend_all_preserves (fun item _ => before text rest <+: item.raw) ?_ ?_ rfl
    · intro item longer below present extended begun
      rw [(extend_eq_some extended).1, List.append_assoc]
      exact begun.trans (List.prefix_append _ _)
    · exact List.prefix_refl _

theorem consumes_of_read_list {checkBoxes : Bool} {contents : List Text}
    (read : readList? checkBoxes text = some (contents, rest))
    (refused : ThematicBreak.read? text = none) : Consumes text rest := by
  simp only [readList?, Option.bind_eq_bind, Option.bind_eq_some_iff, Option.some.injEq,
    Prod.mk.injEq] at read
  obtain ⟨mark, begun, -, rfl⟩ := read
  obtain ⟨written, below, opened⟩ := opened_of_begins begun
  obtain ⟨c, behind, kept, marked, left⟩ := marked_of_mark opened.marked
  obtain ⟨item, after, read, begins⟩ := read_of_opened opened refused
  have within : c ∈ item.1 :=
    begins.subset (mem_before marked ((after_mark_ends opened.below).1.trans left))
  have among : c ∈ ((readAll mark text.length text).map Prod.fst).flatten := by
    obtain ⟨count, length⟩ := Nat.exists_eq_add_of_le' (marked.length_le.trans' (Nat.le_add_left 1 _))
    rw [length, readAll, read]
    exact List.mem_append_left _ within
  have shown := mem_drop_end_while kept among
  obtain ⟨last, taken⟩ := taken_of_read_all mark text.length text
  obtain ⟨back, split⟩ := taken.trimmed
  rw [drop_of_split split]
  conv => arg 1; rw [← split]
  refine consumes_append_iff.mpr ⟨c, shown, ?_⟩
  rintro rfl
  exact absurd kept (by decide)

end ListItem

end LessonBook
