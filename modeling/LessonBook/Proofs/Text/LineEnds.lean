import LessonBook.Proofs.Admonition.LineEnds
import LessonBook.Proofs.Text.FirstLine
import LessonBook.Proofs.Text.Search

/-!
Reading a text and reading it with a newline for every line end. A recognizer
that takes no line end leaves the same, and one that takes a line leaves the same
unless a carriage return without a newline stands inside of the line.
-/

namespace LessonBook

open AdmonitionBracketing

namespace Text

def loneReturns : Text → Nat
  | [] => 0
  | '\r' :: '\n' :: rest => loneReturns rest
  | '\r' :: rest => loneReturns rest + 1
  | _ :: rest => loneReturns rest

def Apart (front back : Text) : Prop :=
  ¬(front.getLast? = some '\r' ∧ back.head? = some '\n')

theorem lone_returns_cons {c : Char} (plain : c ≠ '\r') (rest : Text) :
    loneReturns (c :: rest) = loneReturns rest := by
  rw [loneReturns]
  · rintro rest rfl
    exact absurd rfl plain
  · intro carriage
    exact absurd carriage plain

theorem lone_returns_carriage {rest : Text} (alone : rest.head? ≠ some '\n') :
    loneReturns ('\r' :: rest) = loneReturns rest + 1 := by
  rw [loneReturns]
  rintro rest rfl
  exact alone rfl

theorem lone_returns_newline (rest : Text) : loneReturns ('\r' :: '\n' :: rest) = loneReturns rest := by
  rw [loneReturns]

theorem lone_returns_le_cons (c : Char) (rest : Text) : loneReturns rest ≤ loneReturns (c :: rest) := by
  by_cases carriage : c = '\r'
  · subst carriage
    by_cases alone : rest.head? = some '\n'
    · obtain ⟨rest, rfl⟩ := List.head?_eq_some_iff.mp alone
      rw [lone_returns_newline, lone_returns_cons (by decide)]
    · rw [lone_returns_carriage alone]
      exact Nat.le_succ _
  · rw [lone_returns_cons carriage]

theorem lone_returns_le_append (front back : Text) :
    loneReturns back ≤ loneReturns (front ++ back) := by
  induction front with
  | nil => exact Nat.le_refl _
  | cons c front induction => exact induction.trans (lone_returns_le_cons c (front ++ back))

theorem normalize_carriage {rest : Text} (alone : rest.head? ≠ some '\n') :
    normalizeLineEnds ('\r' :: rest) = '\n' :: normalizeLineEnds rest :=
  normalize_line_end (.inr (.inr ⟨rfl, alone⟩))

theorem normalize_carriage_head (rest : Text) :
    ∃ below, normalizeLineEnds ('\r' :: rest) = '\n' :: below := by
  by_cases alone : rest.head? = some '\n'
  · obtain ⟨rest, rfl⟩ := List.head?_eq_some_iff.mp alone
    exact ⟨_, rfl⟩
  · exact ⟨_, normalize_carriage alone⟩

theorem newline_count_normalize (text : Text) :
    newlineCount (normalizeLineEnds text) = newlineCount text + loneReturns text := by
  fun_induction normalizeLineEnds text with
  | case1 => rfl
  | case2 rest induction =>
      rw [lone_returns_newline, newline_count_newline, induction, newline_count_cons (by decide),
        newline_count_newline]
      omega
  | case3 rest alone induction =>
      have head : rest.head? ≠ some '\n' := by
        intro newline
        obtain ⟨rest, rfl⟩ := List.head?_eq_some_iff.mp newline
        exact alone rest rfl
      rw [lone_returns_carriage head, newline_count_newline, induction,
        newline_count_cons (by decide)]
      omega
  | case4 c rest _ plain induction =>
      have count (text : Text) : newlineCount (c :: text) = newlineCount [c] + newlineCount text :=
        newline_count_append [c] text
      rw [lone_returns_cons fun carriage => plain carriage, count, count rest, induction]
      omega

theorem Apart.of_cons {c : Char} {front back : Text} (apart : Apart (c :: front) back) :
    Apart front back := by
  rintro ⟨last, head⟩
  cases front with
  | nil => cases last
  | cons d front => exact apart ⟨by rwa [List.getLast?_cons_cons], head⟩

theorem apart_of_last {front back : Text} (last : front.getLast? ≠ some '\r') : Apart front back :=
  fun cut => last cut.1

theorem Apart.append {front middle back : Text} (apart : Apart middle back)
    (present : middle ≠ []) : Apart (front ++ middle) back := by
  rintro ⟨last, head⟩
  obtain ⟨letter, same⟩ := Option.ne_none_iff_exists'.mp
    (mt List.getLast?_eq_none_iff.mp present)
  rw [List.getLast?_append, same, Option.some_or] at last
  exact apart ⟨same.trans last, head⟩

theorem Apart.front {front middle back : Text} (apart : Apart front (middle ++ back))
    (present : middle ≠ []) : Apart front middle := by
  rintro ⟨last, head⟩
  refine apart ⟨last, ?_⟩
  cases middle with
  | nil => exact absurd rfl present
  | cons c middle => exact head

theorem normalize_append_of_apart {front back : Text} (apart : Apart front back) :
    normalizeLineEnds (front ++ back) = normalizeLineEnds front ++ normalizeLineEnds back := by
  fun_induction normalizeLineEnds front with
  | case1 => rfl
  | case2 rest induction =>
      rw [List.cons_append, List.cons_append, normalizeLineEnds, induction apart.of_cons.of_cons,
        List.cons_append]
  | case3 rest alone induction =>
      have head : (rest ++ back).head? ≠ some '\n' := by
        cases rest with
        | nil => exact fun newline => apart ⟨rfl, newline⟩
        | cons d rest =>
            rintro ⟨⟩
            exact alone rest rfl
      rw [List.cons_append, normalize_carriage head, induction apart.of_cons, List.cons_append]
  | case4 c rest _ plain induction =>
      rw [List.cons_append, normalize_cons (fun carriage => plain carriage),
        induction apart.of_cons, List.cons_append]

theorem lone_returns_append_of_apart {front back : Text} (apart : Apart front back) :
    loneReturns (front ++ back) = loneReturns front + loneReturns back := by
  have whole := newline_count_normalize (front ++ back)
  rw [normalize_append_of_apart apart, newline_count_append, newline_count_append,
    newline_count_normalize, newline_count_normalize] at whole
  omega

/-- A text without such returns keeps its last character, where no line end is cut. -/
theorem get_last_normalize {text : Text} (whole : loneReturns text = 0) :
    (normalizeLineEnds text).getLast? = text.getLast? := by
  obtain rfl | ⟨front, last, rfl⟩ := List.eq_nil_or_concat text
  · rfl
  · rw [List.concat_eq_append] at whole ⊢
    by_cases carriage : last = '\r'
    · subst carriage
      have single := lone_returns_le_append front ['\r']
      rw [whole] at single
      exact absurd single (by decide)
    · by_cases newline : last = '\n' ∧ front.getLast? = some '\r'
      · obtain ⟨rfl, ended⟩ := newline
        obtain ⟨front, rfl⟩ := List.getLast?_eq_some_iff.mp ended
        have apart : Apart front ['\r', '\n'] := fun cut => by cases cut.2
        rw [List.append_assoc, List.singleton_append, normalize_append_of_apart apart]
        simp [normalizeLineEnds]
      · have apart : Apart front [last] := by
          rintro ⟨ended, head⟩
          exact newline ⟨by simpa using head, ended⟩
        rw [normalize_append_of_apart apart, normalize_cons carriage]
        simp [normalizeLineEnds]

def withoutReturns (text : Text) : Text :=
  text.filter (· != '\r')

def ReturnsLast (line : Text) : Prop :=
  line = withoutReturns line ∨ line = withoutReturns line ++ ['\r']

theorem without_returns_cons {c : Char} (plain : c ≠ '\r') (rest : Text) :
    withoutReturns (c :: rest) = c :: withoutReturns rest :=
  List.filter_cons_of_pos (by simpa using plain)

theorem without_returns_carriage (rest : Text) :
    withoutReturns ('\r' :: rest) = withoutReturns rest :=
  List.filter_cons_of_neg (by simp)

theorem without_returns_plain {line : Text} (single : '\n' ∉ line) : IsPlain (withoutReturns line) := by
  intro c member
  obtain ⟨inside, kept⟩ := List.mem_filter.mp member
  exact ⟨fun newline => single (newline ▸ inside), by simpa using kept⟩

theorem normalize_of_paired {page : Text} (paired : loneReturns page = 0) :
    normalizeLineEnds page = withoutReturns page := by
  induction page with
  | nil => rfl
  | cons c page induction =>
      have below := induction (Nat.le_zero.mp (paired ▸ lone_returns_le_cons c page))
      by_cases carriage : c = '\r'
      · subst carriage
        by_cases newline : page.head? = some '\n'
        · obtain ⟨page, rfl⟩ := List.head?_eq_some_iff.mp newline
          rw [normalize_cons (by decide)] at below
          rw [normalizeLineEnds, below, without_returns_carriage]
        · rw [lone_returns_carriage newline] at paired
          exact absurd paired (Nat.succ_ne_zero _)
      · rw [normalize_cons carriage, without_returns_cons carriage, below]

theorem lines_without_returns (text : Text) :
    lines (withoutReturns text) = (lines text).map withoutReturns := by
  induction text with
  | nil => rfl
  | cons c text induction =>
      by_cases newline : c = '\n'
      · rw [newline, without_returns_cons (by decide), lines_newline, lines_newline, induction]
        rfl
      · obtain ⟨first, others, cut, longer⟩ := lines_cons newline text
        rw [cut, List.map_cons] at induction
        rw [longer, List.map_cons]
        by_cases carriage : c = '\r'
        · rw [carriage, without_returns_carriage, without_returns_carriage, induction]
        · obtain ⟨first', others', cut', longer'⟩ := lines_cons newline (withoutReturns text)
          rw [induction, List.cons.injEq] at cut'
          rw [without_returns_cons carriage, without_returns_cons carriage, longer', cut'.1, cut'.2]

theorem returns_last_of_mem_lines {page line : Text} (paired : loneReturns page = 0)
    (member : line ∈ lines page) : ReturnsLast line := by
  induction page generalizing line with
  | nil => exact .inl (by rw [List.mem_singleton.mp member]; rfl)
  | cons c page induction =>
      have further := Nat.le_zero.mp (paired ▸ lone_returns_le_cons c page)
      by_cases newline : c = '\n'
      · rw [newline, lines_newline] at member
        rcases List.mem_cons.mp member with rfl | member
        · exact .inl rfl
        · exact induction further member
      · obtain ⟨first, others, cut, longer⟩ := lines_cons newline page
        rw [cut] at induction
        rw [longer] at member
        rcases List.mem_cons.mp member with rfl | member
        · by_cases carriage : c = '\r'
          · subst carriage
            by_cases head : page.head? = some '\n'
            · obtain ⟨page, rfl⟩ := List.head?_eq_some_iff.mp head
              rw [lines_newline, List.cons.injEq] at cut
              exact .inr (by rw [← cut.1]; rfl)
            · rw [lone_returns_carriage head] at paired
              exact absurd paired (Nat.succ_ne_zero _)
          · refine (induction further List.mem_cons_self).imp (fun same => ?_) fun same => ?_
            · rw [without_returns_cons carriage, ← same]
            · rw [without_returns_cons carriage, List.cons_append, ← same]
        · exact induction further (List.mem_cons_of_mem first member)

end Text

namespace Recognizer

open Text

variable (inClass : Char → Bool) (newline : inClass '\n' = false) (carriage : inClass '\r' = false)

include newline carriage

theorem drop_while_normalize (text : Text) :
    (normalizeLineEnds text).dropWhile inClass = normalizeLineEnds (text.dropWhile inClass) := by
  induction text with
  | nil => rfl
  | cons c rest induction =>
      by_cases isCarriage : c = '\r'
      · subst isCarriage
        obtain ⟨below, head⟩ := normalize_carriage_head rest
        simp [head, newline, carriage]
      · rw [normalize_cons isCarriage, List.dropWhile_cons, List.dropWhile_cons, induction]
        split
        · rfl
        · rw [normalize_cons isCarriage]

theorem take_while_normalize (text : Text) :
    (normalizeLineEnds text).takeWhile inClass = text.takeWhile inClass := by
  induction text with
  | nil => rfl
  | cons c rest induction =>
      by_cases isCarriage : c = '\r'
      · subst isCarriage
        obtain ⟨below, head⟩ := normalize_carriage_head rest
        simp [head, newline, carriage]
      · rw [normalize_cons isCarriage, List.takeWhile_cons, List.takeWhile_cons, induction]

theorem skip_up_to_normalize (count : Nat) (text : Text) :
    skipUpTo inClass count (normalizeLineEnds text) =
      normalizeLineEnds (skipUpTo inClass count text) := by
  induction count generalizing text with
  | zero => simp [skipUpTo]
  | succ count induction =>
      cases text with
      | nil => rfl
      | cons c rest =>
          by_cases isCarriage : c = '\r'
          · subst isCarriage
            obtain ⟨below, head⟩ := normalize_carriage_head rest
            simp [head, skipUpTo, newline, carriage]
          · rw [normalize_cons isCarriage, skipUpTo, skipUpTo, induction]
            split
            · rfl
            · rw [normalize_cons isCarriage]

theorem one_normalize (text : Text) :
    one inClass (normalizeLineEnds text) = (one inClass text).map normalizeLineEnds := by
  cases text with
  | nil => rfl
  | cons c rest =>
      by_cases isCarriage : c = '\r'
      · subst isCarriage
        obtain ⟨below, head⟩ := normalize_carriage_head rest
        simp [head, one, newline, carriage]
      · rw [normalize_cons isCarriage, one, one]
        split <;> rfl

omit newline carriage

theorem word_normalize {letters : Text} (plain : IsPlain letters) (text : Text) :
    word letters (normalizeLineEnds text) = (word letters text).map normalizeLineEnds := by
  induction letters generalizing text with
  | nil => simp [word]
  | cons w letters induction =>
      rw [plain_cons] at plain
      cases text with
      | nil => rfl
      | cons c rest =>
          by_cases isCarriage : c = '\r'
          · subst isCarriage
            obtain ⟨below, head⟩ := normalize_carriage_head rest
            simp [head, word, plain.1]
          · rw [normalize_cons isCarriage, word, word, induction plain.2]
            split <;> rfl

/-! ### The rest of a line -/

theorem rest_of_normalized_line {line : Text} (single : '\n' ∉ line)
    (whole : loneReturns (line ++ ['\n']) = 0) (rest : Text) :
    lineEnd (afterFirstLine (normalizeLineEnds (line ++ '\n' :: rest))) =
      some (normalizeLineEnds rest) := by
  induction line with
  | nil =>
      rw [List.nil_append, normalize_cons (by decide)]
      simp [afterFirstLine, notNewline, lineEnd]
  | cons c line induction =>
      simp only [List.mem_cons, not_or] at single
      have further := Nat.le_zero.mp (whole ▸ lone_returns_le_cons c (line ++ ['\n']))
      by_cases carriage : c = '\r'
      · subst carriage
        cases line with
        | nil => simp [normalizeLineEnds, afterFirstLine, notNewline, lineEnd]
        | cons d line =>
            simp only [List.mem_cons, not_or] at single
            rw [List.cons_append, lone_returns_carriage (by simpa using Ne.symm single.2.1)] at whole
            exact absurd whole (Nat.succ_ne_zero _)
      · rw [List.cons_append, normalize_cons carriage, afterFirstLine, List.dropWhile_cons,
          if_pos (by simpa [notNewline] using Ne.symm single.1)]
        exact induction single.2 further

theorem plain_of_whole {line : Text} (single : '\n' ∉ line) (whole : loneReturns line = 0) :
    IsPlain line := by
  induction line with
  | nil => exact plain_nil
  | cons c line induction =>
      simp only [List.mem_cons, not_or] at single
      have further := Nat.le_zero.mp (whole ▸ lone_returns_le_cons c line)
      refine plain_cons.mpr ⟨⟨Ne.symm single.1, ?_⟩, induction single.2 further⟩
      rintro rfl
      have alone : line.head? ≠ some '\n' := fun head =>
        single.2 (List.mem_of_mem_head? head)
      rw [lone_returns_carriage alone] at whole
      exact Nat.succ_ne_zero _ whole

/-- What the recognizer takes here ends with a newline or with the text, and if no
carriage return in it stands alone it leaves the same with a newline for every line end. -/
def ReadsAlike (step : Recognizer) (text rest : Text) : Prop :=
  ∃ taken, text = taken ++ rest ∧ (rest = [] ∨ taken.getLast? = some '\n') ∧
    (loneReturns taken = 0 → step (normalizeLineEnds text) = some (normalizeLineEnds rest))

theorem rest_of_line_alike {text rest : Text} (read : lineEnd (afterFirstLine text) = some rest) :
    ReadsAlike (fun other => lineEnd (afterFirstLine other)) text rest := by
  have split := first_line_append_after text
  have single : '\n' ∉ firstLine text := fun member => by
    simpa [notNewline] using List.mem_takeWhile_imp member
  cases below : afterFirstLine text with
  | nil =>
      rw [below] at read split
      cases read
      refine ⟨text, by simp, .inl rfl, fun whole => ?_⟩
      rw [List.append_nil] at split
      rw [split] at single
      have plain := plain_of_whole single whole
      have kept := normalize_append plain []
      rw [List.append_nil] at kept
      simp [kept, below, normalizeLineEnds, lineEnd]
  | cons c after =>
      have isEnd : c = '\n' := by
        by_contra other
        simp [below, lineEnd, other] at read
      subst isEnd
      rw [below] at read split
      cases read
      refine ⟨firstLine text ++ ['\n'], ?_, .inr (by simp), fun whole => ?_⟩
      · rw [List.append_assoc, List.singleton_append, split]
      · have left := rest_of_normalized_line single whole rest
        rwa [split] at left

theorem apart_of_ended {taken rest others left : Text}
    (ended : rest = [] ∨ taken.getLast? = some '\n') (split : rest = others ++ left) :
    Apart taken others := by
  rcases ended with rfl | last
  · obtain rfl := (List.append_eq_nil_iff.mp split.symm).1
    exact fun cut => by cases cut.2
  · exact apart_of_last (by simp [last])

/-- A recognizer that goes on with another one behind the front of a text. -/
theorem ReadsAlike.of_suffix {step other : Recognizer} {text after rest : Text}
    (inside : after <:+ text) (alike : ReadsAlike other after rest)
    (same : ∀ left, other (normalizeLineEnds after) = some left →
      step (normalizeLineEnds text) = some left) : ReadsAlike step text rest := by
  obtain ⟨front, rfl⟩ := inside
  obtain ⟨taken, rfl, ended, reads⟩ := alike
  refine ⟨front ++ taken, (List.append_assoc _ _ _).symm, ?_, fun whole => ?_⟩
  · refine ended.imp_right fun last => ?_
    rw [List.getLast?_append, last, Option.some_or]
  · exact same _ (reads (Nat.le_zero.mp (whole ▸ lone_returns_le_append front taken)))

end Recognizer

end LessonBook
