import Mathlib.Data.List.Induction
import LessonBook.Proofs.Admonition.Replacement

/-!
What replacing the admonitions of a page does to its lines. Line ends and all
lines at which no span starts or ends are kept. An opening line says what it was
read as, and a closing line what the opening line of the last span was read as
that ends there.
-/

namespace LessonBook

open Text

namespace AdmonitionBracketing

open AdmonitionSpan

def lastEnding? (spans : List AdmonitionSpan) (line : Nat) : Option AdmonitionSpan :=
  (spans.filter fun span => span.endLine == line).getLast?

/-- The lines of a page and those that replace them. -/
structure Bracketed (spans : List AdmonitionSpan) (before after : List (Text × Text)) : Prop where
  ends : after.map Prod.snd = before.map Prod.snd
  kept : ∀ index, (∀ span ∈ spans, index ≠ span.startLine ∧ index ≠ span.endLine) →
    after[index]? = before[index]?
  opened : ∀ span ∈ spans, ∃ header, openingHeader? before span = some header ∧
    textAt? after span.startLine = some (startText header)
  closed : ∀ span ∈ spans, ∃ last header, lastEnding? spans span.endLine = some last ∧
    openingHeader? before last = some header ∧
    textAt? after span.endLine = some (endText header.type)
  apart : (spans.map AdmonitionSpan.startLine).Nodup

variable {spans : List AdmonitionSpan} {span : AdmonitionSpan} {header : Header}
  {before between after : List (Text × Text)}

theorem last_ending_snoc (spans : List AdmonitionSpan) (span : AdmonitionSpan) (line : Nat) :
    lastEnding? (spans ++ [span]) line =
      if span.endLine = line then some span else lastEnding? spans line := by
  rw [lastEnding?, lastEnding?, List.filter_append]
  by_cases same : span.endLine = line
  · rw [if_pos same, List.filter_cons_of_pos (by simpa using same), List.filter_nil,
      List.getLast?_append]
    rfl
  · rw [if_neg same, List.filter_cons_of_neg (by simpa using same), List.filter_nil,
      List.append_nil]

theorem bracketed_nil (pageLines : List (Text × Text)) : Bracketed [] pageLines pageLines := by
  refine ⟨rfl, fun index _ => rfl, ?_, ?_, List.nodup_nil⟩
  · intro span member
    cases member
  · intro span member
    cases member

theorem start_ne_end (ends : span.EndsIn (before.map Prod.fst)) {other : AdmonitionSpan}
    (found : openingHeader? before other = some header) : other.startLine ≠ span.endLine := by
  intro same
  have closing := ends.closing
  rw [List.getElem?_map, Option.any_eq_true] at closing
  obtain ⟨line, here, closing⟩ := closing
  rw [openingHeader?, same, textAt?, here, Option.bind_some, header_of_closing closing] at found
  cases found

/-- Applying a span writes its two lines and leaves the others. -/
theorem lines_of_apply_span (wide : span.startLine + 1 < span.endLine)
    (inside : span.endLine < between.length) (applied : applySpan between span = .ok after) :
    ∃ header, openingHeader? between span = some header ∧
      after.map Prod.snd = between.map Prod.snd ∧
      (∀ index, index ≠ span.startLine → index ≠ span.endLine → after[index]? = between[index]?) ∧
      textAt? after span.startLine = some (startText header) ∧
      textAt? after span.endLine = some (endText header.type) := by
  obtain ⟨header, found, rfl⟩ := apply_span_eq_ok applied
  have distinct : span.startLine ≠ span.endLine := by omega
  refine ⟨header, found, ?_, ?_, ?_, ?_⟩
  · rw [map_snd_set_line, map_snd_set_line]
  · intro index start finish
    rw [get_set_line_of_ne finish, get_set_line_of_ne start]
  · rw [text_at_set_line_of_ne distinct, text_at_set_line (by omega)]
  · apply text_at_set_line
    rw [setLine, List.length_modify]
    exact inside

namespace Bracketed

theorem length_eq (bracketed : Bracketed spans before after) : after.length = before.length := by
  have ends := congrArg List.length bracketed.ends
  rwa [List.length_map, List.length_map] at ends

theorem unwritten (bracketed : Bracketed spans before after)
    (found : openingHeader? after span = some header) :
    ∀ other ∈ spans, span.startLine ≠ other.startLine ∧ span.startLine ≠ other.endLine := by
  intro other member
  refine ⟨fun same => ?_, fun same => ?_⟩
  · obtain ⟨written, -, shown⟩ := bracketed.opened other member
    rw [openingHeader?, same, shown, Option.bind_some, header_of_start_text] at found
    cases found
  · obtain ⟨last, written, -, -, shown⟩ := bracketed.closed other member
    rw [openingHeader?, same, shown, Option.bind_some, header_of_end_text] at found
    cases found

theorem header_kept (bracketed : Bracketed spans before after)
    (found : openingHeader? after span = some header) :
    openingHeader? before span = some header := by
  have same := bracketed.kept span.startLine (bracketed.unwritten found)
  rw [openingHeader?, textAt?] at found ⊢
  rw [← same]
  exact found

theorem apply_span (bracketed : Bracketed spans before between)
    (ends : ∀ other ∈ spans ++ [span], other.EndsIn (before.map Prod.fst))
    (applied : applySpan between span = .ok after) : Bracketed (spans ++ [span]) before after := by
  have own := ends span (by simp)
  have inside : span.endLine < between.length := by
    rw [bracketed.length_eq]
    simpa using own.inside
  obtain ⟨header, found, kept_ends, elsewhere, at_start, at_end⟩ :=
    lines_of_apply_span own.wide inside applied
  have unwritten := bracketed.unwritten found
  have original := bracketed.header_kept found
  refine ⟨?_, ?_, ?_, ?_, ?_⟩
  · rw [kept_ends, bracketed.ends]
  · intro index outside
    have here := outside span (by simp)
    rw [elsewhere index here.1 here.2]
    exact bracketed.kept index fun other member => outside other (List.mem_append_left _ member)
  · intro other member
    rcases List.mem_append.mp member with earlier | last
    · obtain ⟨written, read, shown'⟩ := bracketed.opened other earlier
      refine ⟨written, read, ?_⟩
      rw [textAt?, elsewhere other.startLine (Ne.symm (unwritten other earlier).1)
        (start_ne_end own read)]
      exact shown'
    · rw [List.mem_singleton] at last
      rw [last]
      exact ⟨header, original, at_start⟩
  · intro other member
    rw [last_ending_snoc]
    by_cases same : span.endLine = other.endLine
    · rw [if_pos same, ← same]
      exact ⟨span, header, rfl, original, at_end⟩
    · rw [if_neg same]
      have earlier : other ∈ spans := by
        rcases List.mem_append.mp member with earlier | last
        · exact earlier
        · rw [List.mem_singleton] at last
          exact absurd (by rw [last]) same
      obtain ⟨last, written, latest, read, shown'⟩ := bracketed.closed other earlier
      refine ⟨last, written, latest, read, ?_⟩
      rw [textAt?, elsewhere other.endLine (Ne.symm (unwritten other earlier).2) (Ne.symm same)]
      exact shown'
  · rw [List.map_append, List.nodup_append]
    refine ⟨bracketed.apart, List.pairwise_singleton _ _, ?_⟩
    intro line member line' member'
    obtain ⟨other, earlier, rfl⟩ := List.mem_map.mp member
    rw [List.map_singleton, List.mem_singleton] at member'
    rw [member']
    exact Ne.symm (unwritten other earlier).1

theorem of_apply_spans (ends : ∀ span ∈ spans, span.EndsIn (before.map Prod.fst))
    (applied : applySpans before spans = .ok after) : Bracketed spans before after := by
  induction spans using List.reverseRec generalizing after with
  | nil =>
      cases applied
      exact bracketed_nil before
  | append_singleton front span induction =>
      obtain ⟨between, earlier, last⟩ := apply_spans_snoc applied
      have bracketed := induction (fun other member => ends other (by simp [member])) earlier
      exact bracketed.apply_span ends last

end Bracketed

end AdmonitionBracketing

open AdmonitionBracketing

theorem Tree.of_text_normalize (reading : Reading) (page : Text) :
    ofText reading (normalizeLineEnds page) = ofText reading page := by
  have blocks : Block.ofText reading.extensions (normalizeLineEnds page) =
      Block.ofText reading.extensions page := by
    rw [Block.ofText, Block.ofText, normalize_twice]
  rw [ofText, ofText, normalize_twice, blocks]

theorem AdmonitionSpan.locate_normalize (reading : Reading) (page : Text) :
    locate reading (normalizeLineEnds page) = locate reading page := by
  rw [locate, locate, Tree.of_text_normalize, normalize_twice]

theorem AdmonitionSpan.located_end {reading : Reading} {page : Text} {spans : List AdmonitionSpan}
    (located : locate reading page = .ok spans) :
    ∀ span ∈ spans, span.EndsIn ((linesWithEnds page).map Prod.fst) := by
  obtain ⟨tree, -, found⟩ := locate_eq_ok.mp located
  rw [← lines_normalize]
  exact of_nodes_end found

theorem bracket_admonitions_eq (reading : Reading) (page : Text) :
    bracketAdmonitions reading page =
      (AdmonitionSpan.locate reading page).bind fun spans =>
        (applySpans (linesWithEnds page) spans).map joinWithEnds := by
  rw [bracketAdmonitions]
  cases AdmonitionSpan.locate reading page with
  | error problem => rfl
  | ok spans =>
      change (applySpans (linesWithEnds page) spans).bind (fun replaced => .ok _) =
        (applySpans (linesWithEnds page) spans).map joinWithEnds
      cases applySpans (linesWithEnds page) spans <;> rfl

theorem bracket_admonitions_eq_ok {reading : Reading} {page output : Text}
    (bracketed : bracketAdmonitions reading page = .ok output) :
    ∃ spans, AdmonitionSpan.locate reading page = .ok spans ∧
      applySpans (linesWithEnds page) spans = .ok (linesWithEnds output) := by
  rw [bracket_admonitions_eq] at bracketed
  cases located : AdmonitionSpan.locate reading page with
  | error problem =>
      rw [located] at bracketed
      cases bracketed
  | ok spans =>
      refine ⟨spans, rfl, ?_⟩
      rw [located] at bracketed
      cases applied : applySpans (linesWithEnds page) spans with
      | error problem =>
          simp only [Except.bind, applied] at bracketed
          cases bracketed
      | ok replaced =>
          simp only [Except.bind, applied] at bracketed
          cases bracketed
          rw [((are_lines page).apply_spans applied).lines_of_join]

theorem bracket_admonitions_normalize (reading : Reading) (page : Text) :
    bracketAdmonitions reading (normalizeLineEnds page) =
      (bracketAdmonitions reading page).map normalizeLineEnds := by
  rw [bracket_admonitions_eq, bracket_admonitions_eq, AdmonitionSpan.locate_normalize,
    lines_with_ends_normalize]
  cases AdmonitionSpan.locate reading page with
  | error problem => rfl
  | ok spans =>
      simp only [Except.bind, apply_spans_with_newlines]
      cases applied : applySpans (linesWithEnds page) spans with
      | error problem => rfl
      | ok replaced =>
          have cut := (are_lines page).apply_spans applied
          simp only [Except.map, cut.normalize]

theorem end_text_inj {type other : Text} : endText type = endText other ↔ type = other := by
  constructor
  · intro same
    exact List.append_cancel_left (List.append_cancel_right same)
  · intro same
    rw [same]

/-- Replacing the admonitions keeps all lines but those where spans start or end,
whatever ends the lines of the page. A closing line names the type of a span that
ends there exactly when the opening line of the last such span is read as that type. -/
theorem bracket_admonitions_lines (reading : Reading) (page : Text) :
    bracketAdmonitions reading (normalizeLineEnds page) =
        (bracketAdmonitions reading page).map normalizeLineEnds ∧
      ∀ output, bracketAdmonitions reading page = .ok output →
        ∃ spans, AdmonitionSpan.locate reading page = .ok spans ∧
          (∀ span ∈ spans, span.startLine + 1 < span.endLine ∧
            span.endLine ≤ (linesWithEnds page).length - 1) ∧
          Bracketed spans (linesWithEnds page) (linesWithEnds output) ∧
          ∀ span ∈ spans,
            (∃ other ∈ spans, other.endLine = span.endLine ∧
              textAt? (linesWithEnds output) span.endLine = some (endText other.type)) ↔
            ∃ other ∈ spans, other.endLine = span.endLine ∧
              ((lastEnding? spans span.endLine).bind (openingHeader? (linesWithEnds page))).map
                Header.type = some other.type := by
  refine ⟨bracket_admonitions_normalize reading page, fun output bracketed => ?_⟩
  obtain ⟨spans, located, applied⟩ := bracket_admonitions_eq_ok bracketed
  have ends := AdmonitionSpan.located_end located
  have lines := Bracketed.of_apply_spans ends applied
  refine ⟨spans, located, fun span member => ?_, lines, fun span member => ?_⟩
  · have wide := (ends span member).wide
    have inside := (ends span member).inside
    rw [List.length_map] at inside
    omega
  · obtain ⟨last, header, latest, read, shown⟩ := lines.closed span member
    rw [shown, latest, Option.bind_some, read, Option.map_some]
    simp only [Option.some.injEq, end_text_inj]

/-- Behind a line separator a directive begins in the middle of its opening line,
which is read as something else. -/
theorem bracket_admonitions_behind_separator : ∃ spans output,
    AdmonitionSpan.locate {} "\x7btip\x7d\u2028:::\x7bnote\x7d\nbody\n:::\n".toList = .ok spans ∧
      bracketAdmonitions {} "\x7btip\x7d\u2028:::\x7bnote\x7d\nbody\n:::\n".toList = .ok output ∧
      ∃ span ∈ spans, ∀ other ∈ spans,
        textAt? (linesWithEnds output) span.endLine ≠ some (endText other.type) := by
  refine ⟨[⟨0, 2, "note".toList, none⟩],
    "**Start of tip: :::\x7bnote\x7d**\nbody\n**End of tip**\n".toList, ?_, ?_, ?_⟩
  · decide +kernel
  · decide +kernel
  · decide +kernel

end LessonBook
