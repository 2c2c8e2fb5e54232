import LessonBook.Proofs.Markup.ReadingBound
import LessonBook.Proofs.Markup.DirectiveLines

/-!
What a directive takes: its opening line, the lines of its body, none of which
could close it, and the first line that does. Its body is always less than the
text it was read from, so directives inside of directives come to an end.
-/

namespace LessonBook

open Text Recognizer BlockReader

namespace Directive

def IsClosingLine (mark : Char) (count : Nat) (line : Text) : Prop :=
  ∃ indentation run blanks,
    line = List.replicate indentation ' ' ++ (List.replicate run mark ++ blanks) ∧
      indentation ≤ 3 ∧ count ≤ run ∧ ∀ c ∈ blanks, c = ' ' ∨ c = '\t'

def Opening.IsWritten (opening : Opening) (line : Text) : Prop :=
  ∃ indentation run blanks,
    line = List.replicate indentation ' ' ++
        (opening.fence ++ (blanks ++ '\x7b' :: (opening.name ++ '\x7d' :: opening.args))) ∧
      indentation ≤ 3 ∧ opening.fence = List.replicate run opening.mark ∧ 3 ≤ run ∧
      isFenceMark opening.mark = true ∧ (∀ c ∈ blanks, c = ' ' ∨ c = '\t') ∧
      opening.name ≠ [] ∧ ∀ c ∈ opening.name, isNameChar c = true

theorem take_while_eq_replicate (mark : Char) (text : Text) :
    text.takeWhile (· == mark) =
      List.replicate (text.takeWhile (· == mark)).length mark :=
  List.eq_replicate_iff.mpr ⟨rfl, fun c member => by simpa using List.mem_takeWhile_imp member⟩

theorem blank_iff {c : Char} : isSpaceOrTab c = true ↔ c = ' ' ∨ c = '\t' := by
  simp [isSpaceOrTab]

theorem indent_replicate (line : Text) :
    ∃ indentation, line = List.replicate indentation ' ' ++ indent line ∧ indentation ≤ 3 := by
  obtain ⟨spaces, split, bound, blank⟩ := indent_split line
  refine ⟨spaces.length, ?_, bound⟩
  rwa [← List.eq_replicate_iff.mpr ⟨rfl, blank⟩]

theorem closes_iff {mark : Char} {count : Nat} {line : Text} (notSpace : mark ≠ ' ')
    (positive : 0 < count) : closes mark count line = true ↔ IsClosingLine mark count line := by
  constructor
  · intro closing
    simp only [closes, Bool.and_eq_true, decide_eq_true_eq, List.all_eq_true] at closing
    obtain ⟨indentation, split, bound⟩ := indent_replicate line
    refine ⟨indentation, _, (indent line).dropWhile (· == mark), ?_, bound, closing.1,
      fun c member => blank_iff.mp (closing.2 c member)⟩
    rwa [← take_while_eq_replicate, List.takeWhile_append_dropWhile]
  · rintro ⟨indentation, run, blanks, rfl, bound, long, blank⟩
    have indented : indent (List.replicate indentation ' ' ++ (List.replicate run mark ++ blanks)) =
        List.replicate run mark ++ blanks := by
      obtain ⟨more, rfl⟩ := Nat.exists_eq_add_of_le' (positive.trans_le long)
      exact skip_up_to_of_outside (fun c member => by simp [(List.mem_replicate.mp member).2])
        (by simpa using bound) (by simpa using notSpace) _
    have marks : ∀ c ∈ List.replicate run mark, (c == mark) = true :=
      fun c member => by simp [(List.mem_replicate.mp member).2]
    simp only [closes, indented, Bool.and_eq_true, decide_eq_true_eq, List.all_eq_true]
    rw [List.takeWhile_append_of_pos marks, List.dropWhile_append_of_pos marks]
    refine ⟨?_, fun c member => blank_iff.mpr (blank c ((List.dropWhile_suffix _).subset member))⟩
    rw [List.length_append, List.length_replicate]
    exact long.trans (Nat.le_add_right run _)

theorem written_of_opening {line : Text} {opening : Opening} (single : '\n' ∉ line)
    (read : opening? line = some (opening, [])) : opening.IsWritten line := by
  obtain ⟨isMark, long, marks⟩ := fence_of_opening read
  obtain ⟨indentation, split, bound⟩ := indent_replicate line
  simp only [opening?, Option.bind_eq_bind, Option.bind_eq_some_iff] at read
  obtain ⟨mark, -, read⟩ := read
  split at read
  · cases read
  · split at read
    · cases read
    · simp only [Option.bind_eq_some_iff] at read
      obtain ⟨braced, brace, read⟩ := read
      split at read
      · cases read
      · rename_i named
        simp only [Option.bind_eq_some_iff, Option.some.injEq, Prod.mk.injEq] at read
        obtain ⟨args, closing, after, ended, rfl, rfl⟩ := read
        have within := (suffix_of_char closing).trans <| (List.dropWhile_suffix _).trans <|
          (suffix_of_char brace).trans <| (List.dropWhile_suffix _).trans <|
          (List.dropWhile_suffix _).trans (indent_suffix line)
        rw [char_eq_some_iff] at brace closing
        have fenced := List.takeWhile_append_dropWhile (p := (· == mark)) (l := indent line)
        have blanks := List.takeWhile_append_dropWhile (p := isSpaceOrTab)
          (l := (indent line).dropWhile (· == mark))
        have name := List.takeWhile_append_dropWhile (p := isNameChar) (l := braced)
        rw [← skipSpacesAndTabs, brace] at blanks
        rw [closing] at name
        have whole : firstLine args = args :=
          List.takeWhile_eq_self_iff.mpr (not_newline_of_single (single_of_suffix single within))
        refine ⟨indentation, _, ((indent line).dropWhile (· == mark)).takeWhile isSpaceOrTab, ?_, bound,
          List.eq_replicate_iff.mpr ⟨rfl, marks⟩, long, isMark, ?_, by simpa using named, ?_⟩
        · simp only [whole, name, blanks, fenced]
          exact split
        · exact fun c member => blank_iff.mp (List.mem_takeWhile_imp member)
        · exact fun c member => List.mem_takeWhile_imp member

variable {colonFence : Bool} {text rest : Text} {directive : Directive}

/-- The lines that a directive takes from the front of a text. -/
structure Spans (directive : Directive) (text raw : Text) (opening : Opening) (first : Text)
    (body : List Text) : Prop where
  present : raw ≠ []
  front : raw <+: text
  opens : opening.IsWritten first
  name : directive.name = trim opening.name
  args : directive.args = trim opening.args
  fence : directive.fence = opening.fence
  content : directive.body = joinLines body
  single : ∀ line ∈ first :: body, '\n' ∉ line
  inside : ∀ line ∈ lines directive.body, ¬IsClosingLine opening.mark opening.fence.length line
  closed : directive.closed = true → ∃ last,
    IsClosingLine opening.mark opening.fence.length last ∧
      raw = joinLines (first :: (body ++ [last]))
  unclosed : directive.closed = false → raw = text ∧ raw = joinLines (first :: body)
  shorter : directive.body.length < text.length

theorem closes_iff_of_opening {below line : Text} {opening : Opening}
    (read : opening? text = some (opening, below)) :
    closes opening.mark opening.fence.length line = true ↔
      IsClosingLine opening.mark opening.fence.length line := by
  obtain ⟨isMark, long, -⟩ := fence_of_opening read
  apply closes_iff
  · intro space
    rw [space] at isMark
    cases isMark
  · exact Nat.lt_of_lt_of_le (by decide) long

/-- Lines that do not close are still these lines when they are joined, and an empty
body has no line that closes. -/
theorem inside_of_body {first below : Text} {opening : Opening} {body : List Text}
    (read : opening? first = some (opening, below)) (single : ∀ line ∈ body, '\n' ∉ line)
    (inside : ∀ line ∈ body, closes opening.mark opening.fence.length line = false) :
    ∀ line ∈ lines (joinLines body), ¬IsClosingLine opening.mark opening.fence.length line := by
  intro line member
  rw [← closes_iff_of_opening read, Bool.not_eq_true]
  cases body with
  | nil =>
      rw [List.mem_singleton.mp member]
      exact closes_nil (fence_of_opening read).2.1
  | cons next body =>
      rw [lines_join_lines (List.cons_ne_nil next body) single] at member
      exact inside line member

theorem Opening.IsWritten.join_ne_nil {opening : Opening} {first : Text}
    (written : opening.IsWritten first) (others : List Text) : joinLines (first :: others) ≠ [] := by
  obtain ⟨indentation, run, blanks, rfl, -⟩ := written
  rw [join_lines_cons]
  simp

theorem spans_of_closed (read : read? colonFence text = some (directive, rest))
    (closed : directive.closed = true) : ∃ raw opening first body,
      raw ++ rest = text ∧ directive.Spans text raw opening first body := by
  obtain ⟨opening, first, body, last, shape, split, -⟩ := closed_of_read read closed
  have written := written_of_opening (shape.single first List.mem_cons_self) shape.opens
  have single : ∀ line ∈ first :: body, '\n' ∉ line := fun line member =>
    shape.single line (List.cons_subset_cons first (List.subset_append_left body [last]) member)
  refine ⟨_, opening, first, body, split.symm, ?_⟩
  constructor
  · exact written.join_ne_nil _
  · exact ⟨rest, split.symm⟩
  · exact written
  · exact shape.name
  · exact shape.args
  · exact shape.fence
  · exact shape.content
  · exact single
  · rw [shape.content]
    exact inside_of_body shape.opens (List.forall_mem_cons.mp single).2 shape.inside
  · exact fun _ => ⟨last, (closes_iff_of_opening shape.opens).mp shape.closing, rfl⟩
  · intro unclosed
    rw [closed] at unclosed
    cases unclosed
  · exact body_shorter read

theorem spans_of_unclosed (read : read? colonFence text = some (directive, rest))
    (unclosed : directive.closed = false) : ∃ opening first body,
      text ++ rest = text ∧ directive.Spans text text opening first body := by
  obtain ⟨below, cut⟩ := lines_first_line text
  obtain ⟨opening, opens, -, rfl⟩ := (read_iff_lines cut).mp ⟨rest, read⟩
  have split := join_lines_of_lines text
  rw [cut] at split
  have single : ∀ line ∈ firstLine text :: below, '\n' ∉ line :=
    fun line member => no_newline_of_mem_lines (cut ▸ member)
  have inside := List.any_eq_false.mp unclosed
  have content : (ofLines opening below).body = joinLines below := by
    rw [ofLines, List.takeWhile_eq_self_iff.mpr fun line member => by simpa using inside line member]
  have written := written_of_opening (single _ List.mem_cons_self) opens
  refine ⟨opening, firstLine text, below, by rw [rest_of_unclosed read unclosed, List.append_nil], ?_⟩
  constructor
  · exact split ▸ written.join_ne_nil below
  · exact List.prefix_refl text
  · exact written
  · rfl
  · rfl
  · rfl
  · exact content
  · exact single
  · rw [content]
    exact inside_of_body opens (List.forall_mem_cons.mp single).2 fun line member => by
      simpa using inside line member
  · intro closed
    rw [unclosed] at closed
    cases closed
  · exact fun _ => ⟨rfl, split.symm⟩
  · exact body_shorter read

end Directive

namespace BlockReader

/-- A directive that a step reads is the lines it takes. Its body is shorter and lighter
than the text, so any bound above its weight reads all that is inside of it. -/
theorem directive_takes_lines {colonFence : Bool} {inner : Inner} {progress next : Progress}
    {text rest : Text} (taken : directiveStep colonFence inner progress text = some (next, rest)) :
    ∃ raw directive tokens opening first body,
      next.blocks = .directive raw directive tokens :: progress.blocks ∧ raw ++ rest = text ∧
        Directive.Spans directive text raw opening first body ∧
        weight directive.body < weight text ∧
        ∀ enabled paragraphs fuel more, weight directive.body < fuel → weight directive.body < more →
          innerBlocks enabled fuel paragraphs directive.body =
            innerBlocks enabled more paragraphs directive.body := by
  obtain ⟨directive, read, rfl⟩ := directive_step_eq_some taken
  have spans : ∃ raw opening first body, raw ++ rest = text ∧
      directive.Spans text raw opening first body := by
    cases closed : directive.closed with
    | true => exact Directive.spans_of_closed read closed
    | false => exact ⟨text, Directive.spans_of_unclosed read closed⟩
  obtain ⟨raw, opening, first, body, split, spans⟩ := spans
  refine ⟨raw, directive, _, opening, first, body, by rw [before_of_split split]; rfl, split, spans,
    Directive.body_lighter read, ?_⟩
  intro enabled paragraphs fuel more
  exact inner_blocks_eq_of_enough paragraphs

/-- A longer fence is text where something follows it, and blanks may stand behind the
closing one. -/
theorem directive_takes_lines_note :
    let text := ":::\x7bnote\x7d T\n:::: x\nb\n :::: \nrest".toList
    let directive : Directive :=
      ⟨"note".toList, "T".toList, ":::".toList, ":::: x\nb".toList, true⟩
    let raw := ":::\x7bnote\x7d T\n:::: x\nb\n :::: ".toList
    let next : Progress := ⟨[.directive raw directive []], false, true⟩
    directiveStep true (fun _ _ => []) (.start true) text = some (next, "\nrest".toList) ∧
      ∃ raw directive tokens opening first body,
        next.blocks = .directive raw directive tokens :: (Progress.start true).blocks ∧
          raw ++ "\nrest".toList = text ∧ Directive.Spans directive text raw opening first body ∧
          weight directive.body < weight text ∧
          ∀ enabled paragraphs fuel more,
            weight directive.body < fuel → weight directive.body < more →
            innerBlocks enabled fuel paragraphs directive.body =
              innerBlocks enabled more paragraphs directive.body := by
  intro text directive raw next
  have taken : directiveStep true (fun _ _ => []) (.start true) text =
      some (next, "\nrest".toList) := by rfl
  exact ⟨taken, directive_takes_lines taken⟩

end BlockReader

end LessonBook
