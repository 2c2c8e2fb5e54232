import LessonBook.Proofs.Exercise.PageReading

/-!
Bracketing as one pass over the lines of a page that remembers only what the
line above was. On pages without other line terminators and without solution
comments of their own, bracketing does nothing else.
-/

namespace LessonBook

open Text Recognizer

structure MarkerLine where
  mark : Char
  kind : RegionKind
  boundary : Boundary
  deriving DecidableEq, Repr

namespace MarkerLine

def tags : List (RegionKind × Boundary) :=
  [(.exercise, .start), (.exercise, .finish), (.solution, .start), (.solution, .finish)]

def ofLine? (line : Text) : Option MarkerLine :=
  match line.dropWhile isSpaceOrTab with
  | [] => none
  | mark :: rest =>
      let fence := (mark :: rest).takeWhile (· == mark)
      let behind := ((mark :: rest).dropWhile (· == mark)).dropWhile isSpaceOrTab
      if (line.takeWhile isSpaceOrTab).length ≤ 3 && Directive.isFenceMark mark &&
          3 ≤ fence.length then
        (tags.find? fun tag => startsWith (Marker.tagText tag.1 tag.2) behind).map fun tag =>
          ⟨mark, tag.1, tag.2⟩
      else none

end MarkerLine

def isAttributeLine (line : Text) : Bool :=
  match line.dropWhile isSpaceOrTab with
  | ':' :: named =>
      !(named.takeWhile FieldList.isKeyChar).isEmpty &&
        (named.dropWhile FieldList.isKeyChar).head? == some ':'
  | _ => false

def isFenceLine (mark : Char) (line : Text) : Bool :=
  let fence := line.dropWhile isSpaceOrTab
  3 ≤ (fence.takeWhile (· == mark)).length && (fence.dropWhile (· == mark)).all isSpaceOrTab

namespace LineRewrite

/-- What the next line may be: any line, a line of the marker above, or a line of a solution. -/
inductive Mode where
  | copying
  | below (mark : Char)
  | hiding
  deriving DecidableEq, Repr

def rewriteMarker : MarkerLine → List Text × Mode
  | ⟨mark, .exercise, .start⟩ => (["**Start of exercise**".toList], .below mark)
  | ⟨mark, .exercise, .finish⟩ => (["**End of exercise**".toList], .below mark)
  | ⟨_, .solution, .start⟩ => (["**See page for solution**".toList], .hiding)
  | ⟨mark, .solution, .finish⟩ => ([], .below mark)

def rewriteLine (line : Text) : List Text × Mode :=
  match MarkerLine.ofLine? line with
  | none => ([line], .copying)
  | some marker => rewriteMarker marker

/-- The lines written for a line. The attribute lines below a marker and then
one line with its fence are dropped, and a solution up to its end marker. -/
def step : Mode → Text → List Text × Mode
  | .copying, line => rewriteLine line
  | .below mark, line =>
      if isAttributeLine line then ([], .below mark)
      else if isFenceLine mark line then ([], .copying)
      else rewriteLine line
  | .hiding, line =>
      match MarkerLine.ofLine? line with
      | some ⟨mark, .solution, .finish⟩ => ([], .below mark)
      | _ => ([], .hiding)

def run (mode : Mode) : List Text → List Text
  | [] => []
  | line :: lines => (step mode line).1 ++ run (step mode line).2 lines

def rewrite (page : Text) : Text :=
  joinLines (run .copying (lines page))

@[simp] theorem run_nil (mode : Mode) : run mode [] = [] := rfl

@[simp] theorem run_cons (mode : Mode) (line : Text) (lines : List Text) :
    run mode (line :: lines) = (step mode line).1 ++ run (step mode line).2 lines := rfl

end LineRewrite

namespace MarkerLine

theorem skip_up_to_cases (inClass : Char → Bool) (count : Nat) (text : Text) :
    ((text.takeWhile inClass).length ≤ count ∧
        skipUpTo inClass count text = text.dropWhile inClass) ∨
      (count < (text.takeWhile inClass).length ∧
        ∃ c rest, skipUpTo inClass count text = c :: rest ∧ inClass c = true) := by
  induction count generalizing text with
  | zero =>
      cases text with
      | nil => simp [skipUpTo]
      | cons c rest =>
          by_cases inside : inClass c = true
          · exact .inr ⟨by simp [inside], c, rest, rfl, inside⟩
          · exact .inl ⟨by simp [inside], by simp [skipUpTo, inside]⟩
  | succ count induction =>
      cases text with
      | nil => simp [skipUpTo]
      | cons c rest =>
          by_cases inside : inClass c = true
          · rcases induction rest with ⟨short, skipped⟩ | ⟨long, d, more, skipped, inside'⟩
            · exact .inl ⟨by simpa [inside] using short, by simpa [skipUpTo, inside] using skipped⟩
            · exact .inr ⟨by simpa [inside] using long, d, more,
                by simpa [skipUpTo, inside] using skipped, inside'⟩
          · exact .inl ⟨by simp [inside], by simp [skipUpTo, inside]⟩

theorem fence_eq (line : Text) :
    Marker.fence? line = match line.dropWhile isSpaceOrTab with
      | [] => none
      | mark :: rest =>
          if (line.takeWhile isSpaceOrTab).length ≤ 3 && Directive.isFenceMark mark &&
              3 ≤ ((mark :: rest).takeWhile (· == mark)).length then
            some (mark, (mark :: rest).dropWhile (· == mark))
          else none := by
  unfold Marker.fence?
  rcases skip_up_to_cases isSpaceOrTab 3 line with ⟨short, skipped⟩ | ⟨long, c, rest, skipped, blank⟩
  · rw [skipped]
    cases line.dropWhile isSpaceOrTab with
    | nil => rfl
    | cons mark rest => simp [short]
  · have unmarked : Directive.isFenceMark c = false := by
      revert blank
      simp only [isSpaceOrTab, Bool.or_eq_true, beq_iff_eq]
      rintro (rfl | rfl) <;> decide
    have tooLong : ¬(line.takeWhile isSpaceOrTab).length ≤ 3 := Nat.not_le.mpr long
    rw [skipped]
    cases line.dropWhile isSpaceOrTab <;> simp [unmarked, tooLong]

theorem tag_eq (text : Text) : (Marker.tag? text).map Prod.fst =
    tags.find? fun tag => startsWith (Marker.tagText tag.1 tag.2) text := by
  cases read : Marker.tag? text with
  | none =>
      rw [Option.map_none, eq_comm, List.find?_eq_none]
      intro tag member found
      rw [startsWith, List.isPrefixOf_iff_prefix] at found
      obtain ⟨rest, same⟩ := found
      rw [Marker.tag_eq_some_iff.mpr same.symm] at read
      cases read
  | some tagged =>
      obtain ⟨⟨kind, boundary⟩, rest⟩ := tagged
      rw [Marker.tag_eq_some_iff.mp read]
      cases kind <;> cases boundary <;> rfl

theorem opening_eq {line : Text} (single : '\n' ∉ line) :
    ((Marker.opening? line).map fun found =>
      (⟨found.1.mark, found.1.kind, found.1.boundary⟩ : MarkerLine)) = ofLine? line := by
  have ended {tagged : Text} (left : tagged <:+ line) :
      lineEnd (afterFirstLine tagged) = some [] := by
    have behind := after_first_line_before_end (rfl : atLineEnd [] = true)
      (single_of_suffix single left)
    rw [List.append_nil] at behind
    rw [behind]
    rfl
  have fenced := fence_eq line
  rw [Marker.opening_eq, ofLine?]
  cases behindBlanks : line.dropWhile isSpaceOrTab with
  | nil =>
      rw [behindBlanks] at fenced
      rw [fenced]
      rfl
  | cons mark rest =>
      rw [behindBlanks] at fenced
      simp only at fenced ⊢
      split
      · rename_i accepted
        rw [if_pos accepted] at fenced
        have left := (List.dropWhile_suffix isSpaceOrTab).trans (Marker.suffix_of_fence fenced)
        rw [← tag_eq, fenced, Option.bind_some, Option.map_map, skipSpacesAndTabs]
        cases read : Marker.tag? (((mark :: rest).dropWhile (· == mark)).dropWhile isSpaceOrTab) with
        | none => rfl
        | some tagged => simp [ended ((Marker.suffix_of_tag read).trans left)]
      · rename_i refused
        rw [if_neg refused] at fenced
        rw [fenced]
        rfl

end MarkerLine

theorem is_attribute_line_eq (line : Text) :
    isAttributeLine line = (Marker.attributeKey? line).isSome := by
  unfold isAttributeLine Marker.attributeKey? skipSpacesAndTabs
  cases line.dropWhile isSpaceOrTab with
  | nil => rfl
  | cons c named =>
      by_cases colon : c = ':'
      · subst colon
        have opened : char ':' (':' :: named) = some named := rfl
        cases empty : (named.takeWhile FieldList.isKeyChar).isEmpty with
        | true => simp only [opened, Option.bind_eq_bind, Option.bind_some, empty]; rfl
        | false =>
            simp only [opened, Option.bind_eq_bind, Option.bind_some, empty]
            cases named.dropWhile FieldList.isKeyChar with
            | nil => rfl
            | cons d rest => by_cases second : d = ':' <;> simp [char, one, second]
      · simp [char, one, colon]

/-- Without other line terminators a closing fence takes the whole line. -/
theorem closing_of_is_fence_line {line : Text} (unbroken : ∀ c ∈ line, isTerminator c = false)
    (mark : Char) :
    Marker.closing? mark line = if isFenceLine mark line then some [] else none := by
  unfold isFenceLine Marker.closing? skipSpacesAndTabs
  by_cases long : 3 ≤ ((line.dropWhile isSpaceOrTab).takeWhile (· == mark)).length
  · cases behind : ((line.dropWhile isSpaceOrTab).dropWhile (· == mark)).dropWhile isSpaceOrTab with
    | nil =>
        have blank := List.dropWhile_eq_nil_iff.mp behind
        simp [Nat.not_lt.mpr long, long, behind, List.all_eq_true.mpr blank]
    | cons c rest =>
        have left : c :: rest <:+ line := behind ▸ (List.dropWhile_suffix _).trans
          ((List.dropWhile_suffix _).trans (List.dropWhile_suffix _))
        have plain := unbroken c (left.mem (by simp))
        have notBlank : ((line.dropWhile isSpaceOrTab).dropWhile (· == mark)).all isSpaceOrTab =
            false := by
          rw [Bool.eq_false_iff, ne_eq, List.all_eq_true]
          intro blank
          rw [List.dropWhile_eq_nil_iff.mpr blank] at behind
          cases behind
        have noNewline : c ≠ '\n' := by
          rintro rfl
          simp [isTerminator] at plain
        simp [Nat.not_lt.mpr long, behind, noNewline, plain, notBlank]
  · simp [Nat.lt_of_not_le long, long]

end LessonBook
