import LessonBook.Proofs.Markup.BlockStart
import LessonBook.Proofs.Markup.FormulaEnd

/-!
Where a paragraph is interrupted. The search takes the first line start, other
than the front, at which a block is accepted, and goes on behind whatever it read.
A directive takes no more than its line, but a formula at the front hides the
blocks that begin inside of it.
-/

namespace LessonBook

open Text Recognizer

namespace BlockReader

/-! ### The first place of a kind -/

def IsFirst (holds : Nat → Prop) : Option Nat → Prop
  | none => ∀ place, ¬holds place
  | some place => holds place ∧ ∀ earlier < place, ¬holds earlier

variable {holds others : Nat → Prop} {found : Option Nat}

theorem IsFirst.congr (same : ∀ place, holds place ↔ others place) :
    IsFirst holds found ↔ IsFirst others found := by
  rw [show holds = others from funext fun place => propext (same place)]

theorem IsFirst.least {place : Nat} (first : IsFirst holds found) (here : holds place) :
    ∃ earlier ≤ place, found = some earlier := by
  cases found with
  | none => exact absurd here (first place)
  | some earlier =>
      exact ⟨earlier, Nat.le_of_not_lt fun smaller => first.2 place smaller here, rfl⟩

/-- Leaving places out changes the first one unless it is none of them. -/
theorem IsFirst.restrict_iff {start : Nat}
    (first : IsFirst (fun place => holds place ∧ start ≤ place) found) :
    IsFirst holds found ↔ ∀ place, holds place → start ≤ place := by
  constructor
  · intro whole place here
    obtain ⟨earlier, bound, rfl⟩ := whole.least here
    exact first.1.2.trans bound
  · intro behind
    exact (IsFirst.congr fun place => and_iff_left_of_imp (behind place)).mp first

theorem IsFirst.from_next {start next : Nat} (bound : start ≤ next)
    (nothing : ∀ place, start ≤ place → place < next → ¬holds place)
    (first : IsFirst (fun place => next ≤ place ∧ holds place) found) :
    IsFirst (fun place => start ≤ place ∧ holds place) found := by
  refine (IsFirst.congr fun place => ⟨fun here => ?_, fun here => ?_⟩).mp first
  · exact ⟨bound.trans here.1, here.2⟩
  · exact ⟨Nat.le_of_not_lt fun smaller => nothing place here.1 smaller here.2, here.2⟩

theorem is_first_least {first second : Option Nat} (isFirst : IsFirst holds first)
    (isSecond : IsFirst others second) :
    IsFirst (fun place => holds place ∨ others place) (least? first second) := by
  cases first with
  | none =>
      have same : ∀ place, others place ↔ holds place ∨ others place :=
        fun place => (or_iff_right (isFirst place)).symm
      cases second <;> exact (IsFirst.congr same).mp isSecond
  | some a =>
      cases second with
      | none => exact (IsFirst.congr fun place => (or_iff_left (isSecond place)).symm).mp isFirst
      | some b =>
          rw [least?]
          rcases Nat.le_total a b with smaller | smaller
          · rw [Nat.min_eq_left smaller]
            refine ⟨.inl isFirst.1, fun earlier before => not_or.mpr ?_⟩
            exact ⟨isFirst.2 earlier before, isSecond.2 earlier (by omega)⟩
          · rw [Nat.min_eq_right smaller]
            refine ⟨.inr isSecond.1, fun earlier before => not_or.mpr ?_⟩
            exact ⟨isFirst.2 earlier (by omega), isSecond.2 earlier before⟩

/-! ### The search -/

def IsLineStart (text : Text) (place : Nat) : Prop :=
  place = 0 ∨ EndsBefore text place

variable {read : Text → Option (Bool × Text)} {front : Text} {atStart : Bool}

theorem ends_before_append (front text : Text) :
    EndsBefore (front ++ text) front.length ↔
      ∃ c, front.getLast? = some c ∧ isTerminator c = true := by
  constructor
  · rintro ⟨earlier, c, rest, split, ended, length⟩
    rw [List.append_cons] at split
    obtain ⟨rfl, -⟩ := List.append_inj split (by simp [length])
    exact ⟨c, List.getLast?_concat, ended⟩
  · rintro ⟨c, last, ended⟩
    obtain ⟨earlier, rfl⟩ := List.getLast?_eq_some_iff.mp last
    exact ⟨earlier, c, text, by simp, ended, by simp⟩

theorem ends_before_concat (front : Text) (c : Char) (rest : Text) :
    EndsBefore (front ++ c :: rest) (front.length + 1) ↔ isTerminator c = true := by
  have step := ends_before_append (front ++ [c]) rest
  simpa using step

theorem ends_before_le {text : Text} {place : Nat} (ends : EndsBefore text place) :
    0 < place ∧ place ≤ text.length := by
  obtain ⟨front, c, rest, rfl, -, rfl⟩ := ends
  simp

theorem start_from_skip (consumed rest : Text) (index : Nat) (atStart : Bool) :
    startFrom read consumed.length index atStart (consumed ++ rest) =
      startFrom read 0 (index + consumed.length)
        ((consumed.getLast?.map isTerminator).getD atStart) rest := by
  induction consumed generalizing index atStart with
  | nil => rfl
  | cons c consumed induction =>
      rw [List.cons_append, List.length_cons, startFrom, induction, List.getLast?_cons]
      congr 1
      · omega
      · cases consumed.getLast? <;> rfl

/-- A reading that is not accepted, or stands at the front, takes its text. -/
theorem start_from_refused {consumed rest : Text} {accepted : Bool} {index : Nat}
    (present : consumed ≠ []) (reading : read (consumed ++ rest) = some (accepted, rest))
    (refused : (accepted && decide (0 < index)) = false) :
    startFrom read 0 index true (consumed ++ rest) =
      startFrom read 0 (index + consumed.length)
        ((consumed.getLast?.map isTerminator).getD true) rest := by
  cases consumed with
  | nil => exact absurd rfl present
  | cons c consumed =>
      have length : (c :: (consumed ++ rest)).length - rest.length - 1 = consumed.length := by
        simp
        omega
      rw [List.cons_append] at reading ⊢
      rw [startFrom, if_pos rfl, reading]
      simp only [refused, Bool.false_eq_true, if_false, length]
      rw [start_from_skip, List.getLast?_cons]
      congr 1
      · simp
        omega
      · cases consumed.getLast? <;> rfl

theorem start_from_plain {c : Char} {rest : Text} {index : Nat}
    (nothing : (if atStart then read (c :: rest) else none) = none) :
    startFrom read 0 index atStart (c :: rest) = startFrom read 0 (index + 1) (isTerminator c) rest := by
  rw [startFrom, nothing]

theorem start_from_accepted {c : Char} {rest left : Text} {index : Nat}
    (reading : read (c :: rest) = some (true, left)) (positive : 0 < index) :
    startFrom read 0 index true (c :: rest) = some index := by
  rw [startFrom, if_pos rfl, reading]
  simp [positive]

/-! ### Formulas -/

def frontLength (formula : Text → Option (Formula × Text)) (text : Text) : Nat :=
  ((formula text).map fun found => (before text found.2).length).getD 0

/-- A formula begins at a line start that is not inside of a formula at the front. -/
def FormulaBegins (formula : Text → Option (Formula × Text)) (text : Text) (place : Nat) : Prop :=
  (EndsBefore text place ∧ (formula (text.drop place)).isSome = true) ∧
    frontLength formula text ≤ place

/-- Every reading is accepted from behind the front on. -/
theorem first_behind_front (nothing : read [] = none)
    (accepting : ∀ {here accepted left}, read here = some (accepted, left) → accepted = true)
    (present : front ≠ []) (text : Text)
    (started : atStart = true ↔ EndsBefore (front ++ text) front.length) :
    IsFirst (fun place => front.length ≤ place ∧ (EndsBefore (front ++ text) place ∧
        (read ((front ++ text).drop place)).isSome = true))
      (startFrom read 0 front.length atStart text) := by
  induction text generalizing front atStart with
  | nil =>
      rintro place ⟨behind, ends, reading⟩
      have length := (ends_before_le ends).2
      rw [List.append_nil] at length reading
      rw [List.drop_eq_nil_of_le behind, nothing] at reading
      cases reading
  | cons c text induction =>
      have here : (front ++ c :: text).drop front.length = c :: text := List.drop_left
      cases reading : if atStart then read (c :: text) else none with
      | none =>
          have below := @induction (front ++ [c]) (isTerminator c) (by simp)
            (by simpa using (ends_before_concat front c text).symm)
          rw [start_from_plain reading]
          simp only [List.append_assoc, List.singleton_append, List.length_append,
            List.length_singleton] at below
          refine below.from_next (Nat.le_succ _) ?_
          rintro place behind before ⟨ends, found⟩
          obtain rfl : place = front.length := by omega
          rw [here] at found
          rw [if_pos (started.mpr ends)] at reading
          rw [reading] at found
          cases found
      | some found =>
          obtain ⟨accepted, left⟩ := found
          cases atStart with
          | false => cases reading
          | true =>
              rw [if_pos rfl] at reading
              cases accepting reading
              rw [start_from_accepted reading (List.length_pos_iff.mpr present)]
              refine ⟨⟨Nat.le_refl _, started.mp rfl, by rw [here, reading]; rfl⟩, ?_⟩
              exact fun earlier smaller behind => absurd behind.1 (Nat.not_le_of_lt smaller)

theorem first_formula {formula : Text → Option (Formula × Text)} (nothing : formula [] = none)
    (leaves : ∀ {here found left}, formula here = some (found, left) → Consumes here left)
    (text : Text) :
    IsFirst (FormulaBegins formula text)
      (startFrom (fun here => (formula here).map fun found => (true, found.2)) 0 0 true text) := by
  have accepting : ∀ {here : Text} {accepted left},
      ((formula here).map fun found => (true, found.2)) = some (accepted, left) → accepted = true := by
    intro here accepted left reading
    obtain ⟨found, -, same⟩ := Option.map_eq_some_iff.mp reading
    exact (congrArg Prod.fst same).symm
  unfold FormulaBegins
  have behind := @first_behind_front (fun here => (formula here).map fun found => (true, found.2))
  simp only [Option.isSome_map] at behind
  cases front : formula text with
  | none =>
      have length : frontLength formula text = 0 := by rw [frontLength, front]; rfl
      cases text with
      | nil => exact fun place here => absurd (ends_before_le here.1.1) (by simp; omega)
      | cons c text =>
          rw [start_from_plain (by simp [front]), length]
          refine (IsFirst.congr fun place => ?_).mp (@behind [c] (isTerminator c)
            (by simp [nothing]) accepting (by simp) text (ends_before_concat [] c text).symm)
          constructor
          · exact fun here => ⟨here.2, Nat.zero_le _⟩
          · exact fun here => ⟨(ends_before_le here.1.1).1, here.1⟩
  | some found =>
      obtain ⟨formulaHere, left⟩ := found
      have consumes := leaves front
      have split := before_append_rest consumes.suffix
      have length : frontLength formula text = (before text left).length := by
        rw [frontLength, front]
        rfl
      rw [length]
      generalize before text left = consumed at split
      subst split
      have present : consumed ≠ [] := by
        rintro rfl
        exact Nat.lt_irrefl _ consumes.shorter
      rw [start_from_refused present (by rw [front]; rfl) (by simp), Nat.zero_add]
      refine (IsFirst.congr fun place => and_comm).mp (@behind consumed _ (by simp [nothing]) accepting
        present left ?_)
      rw [ends_before_append]
      obtain ⟨last, ends⟩ := Option.ne_none_iff_exists'.mp (mt List.getLast?_eq_none_iff.mp present)
      simp [ends]

/-! ### Directives -/

theorem directive_read_is_some_iff {colonFence : Bool} {text : Text} :
    (Directive.read? colonFence text).isSome = true ↔ ∃ opening rest,
      Directive.opening? text = some (opening, rest) ∧
        (colonFence || opening.mark != ':') = true := by
  rw [Directive.read?]
  cases opened : Directive.opening? text with
  | none => simp
  | some found =>
      obtain ⟨opening, rest⟩ := found
      simp only [Option.bind_eq_bind, Option.bind_some, Option.some.injEq, Prod.mk.injEq]
      by_cases refused : (opening.mark == ':' && !colonFence) = true
      · simp only [Bool.and_eq_true, beq_iff_eq, Bool.not_eq_true'] at refused
        simp [refused.1, refused.2]
      · have allowed : (colonFence || opening.mark != ':') = true := by
          cases colonFence <;> simp_all
        rw [if_neg refused]
        constructor
        · exact fun _ => ⟨opening, rest, ⟨rfl, rfl⟩, allowed⟩
        · intro _
          split <;> rfl

/-- Every opening line that begins in front of the place ends in front of it. -/
def Clear (text : Text) (place : Nat) : Prop :=
  ∀ earlier < place, IsLineStart text earlier →
    (Directive.opening? (text.drop earlier)).isSome = true →
      '\n' ∈ (text.drop earlier).take (place - earlier)

theorem clear_behind_newline (front rest : Text) :
    Clear (front ++ '\n' :: rest) (front.length + 1) := by
  intro earlier before _ _
  have bound : earlier ≤ front.length := Nat.le_of_lt_succ before
  rw [List.drop_append_of_le_length bound, List.take_append]
  refine List.mem_append_right _ ?_
  have room : front.length + 1 - earlier - (front.drop earlier).length = 1 := by
    rw [List.length_drop]
    omega
  rw [room]
  exact List.mem_cons_self

theorem clear_next {front rest : Text} {c : Char} (clear : Clear (front ++ c :: rest) front.length)
    (plain : IsLineStart (front ++ c :: rest) front.length →
      Directive.opening? (c :: rest) = none) :
    Clear (front ++ c :: rest) (front.length + 1) := by
  intro earlier before start opened
  rcases Nat.lt_succ_iff_lt_or_eq.mp before with smaller | rfl
  · have inside := clear earlier smaller start opened
    exact ((List.take_prefix_take_left (by omega)).subset) inside
  · rw [List.drop_left, plain start] at opened
    cases opened

/-- A directive begins at the first line start where one is read, if no opening line
in front of it runs on to this place behind another line terminator. -/
def DirectiveBegins (colonFence : Bool) (text : Text) (place : Nat) : Prop :=
  EndsBefore text place ∧ (Directive.read? colonFence (text.drop place)).isSome = true ∧
    Clear text place

/-- An opening line hides what stands behind another line terminator inside of it. -/
theorem not_clear_inside {front text line rest : Text} {opening : Directive.Opening} {place : Nat}
    (start : IsLineStart (front ++ text) front.length)
    (opened : Directive.opening? text = some (opening, rest)) (begins : line <+: text)
    (single : '\n' ∉ line) (behind : front.length < place)
    (inside : place ≤ front.length + line.length) : ¬Clear (front ++ text) place := by
  intro clear
  have newline := clear front.length behind start (by rw [List.drop_left, opened]; rfl)
  obtain ⟨below, rfl⟩ := begins
  rw [List.drop_left, List.take_append_of_le_length (by omega)] at newline
  exact single ((List.take_prefix _ _).subset newline)

theorem nothing_on_refused_line {colonFence : Bool} {front line tail rest : Text}
    {opening : Directive.Opening} (start : IsLineStart (front ++ (line ++ tail)) front.length)
    (opened : Directive.opening? (line ++ tail) = some (opening, rest)) (single : '\n' ∉ line)
    (refused : ((colonFence || opening.mark != ':') && decide (0 < front.length)) = false)
    {place : Nat} (behind : front.length ≤ place) (inside : place ≤ front.length + line.length) :
    ¬DirectiveBegins colonFence (front ++ (line ++ tail)) place := by
  rintro ⟨ends, reading, clear⟩
  rcases Nat.eq_or_lt_of_le behind with rfl | behind
  · rw [List.drop_left, directive_read_is_some_iff] at reading
    obtain ⟨other, left, otherOpened, accepted⟩ := reading
    cases opened.symm.trans otherOpened
    rw [accepted, decide_eq_true (ends_before_le ends).1] at refused
    cases refused
  · exact not_clear_inside start opened (List.prefix_append line tail) single behind inside clear

def directiveReading (colonFence : Bool) (here : Text) : Option (Bool × Text) :=
  (Directive.opening? here).map fun found => (colonFence || found.1.mark != ':', found.2)

/-- The search finds the first directive behind the front. -/
def FindsDirective (colonFence atStart : Bool) (front text : Text) : Prop :=
  IsFirst (fun place => front.length ≤ place ∧ DirectiveBegins colonFence (front ++ text) place)
    (startFrom (directiveReading colonFence) 0 front.length atStart text)

theorem not_directive_of_unopened {colonFence : Bool} {front text : Text}
    (plain : IsLineStart (front ++ text) front.length → Directive.opening? text = none) :
    ¬DirectiveBegins colonFence (front ++ text) front.length := by
  rintro ⟨ends, found, -⟩
  rw [List.drop_left, directive_read_is_some_iff, plain (.inr ends)] at found
  simp at found

theorem finds_directive_nil {colonFence : Bool} {front : Text} :
    FindsDirective colonFence atStart front [] := by
  rintro place ⟨behind, begins⟩
  have bound := (ends_before_le begins.1).2
  rw [List.append_nil] at bound
  exact not_directive_of_unopened (fun _ => rfl) (Nat.le_antisymm bound behind ▸ begins)

theorem finds_directive_plain {colonFence : Bool} {front rest : Text} {c : Char}
    (started : atStart = true ↔ IsLineStart (front ++ c :: rest) front.length)
    (plain : IsLineStart (front ++ c :: rest) front.length → Directive.opening? (c :: rest) = none)
    (finds : FindsDirective colonFence (isTerminator c) (front ++ [c]) rest) :
    FindsDirective colonFence atStart front (c :: rest) := by
  have refused : (if atStart then directiveReading colonFence (c :: rest) else none) = none := by
    split
    · rename_i start
      rw [directiveReading, plain (started.mp start)]
      rfl
    · rfl
  rw [FindsDirective, start_from_plain refused]
  rw [FindsDirective, List.append_assoc, List.singleton_append, List.length_append,
    List.length_singleton] at finds
  refine finds.from_next (Nat.le_succ _) ?_
  intro place behind before begins
  obtain rfl : place = front.length := by omega
  exact not_directive_of_unopened plain begins

theorem finds_directive_accepted {colonFence : Bool} {front text rest : Text}
    {opening : Directive.Opening} (start : IsLineStart (front ++ text) front.length)
    (clear : Clear (front ++ text) front.length)
    (opened : Directive.opening? text = some (opening, rest))
    (accepted : ((colonFence || opening.mark != ':') && decide (0 < front.length)) = true) :
    FindsDirective colonFence true front text := by
  rw [Bool.and_eq_true, decide_eq_true_eq] at accepted
  have found : startFrom (directiveReading colonFence) 0 front.length true text =
      some front.length := by
    cases text with
    | nil => cases opened
    | cons c text =>
        exact start_from_accepted (by rw [directiveReading, opened, ← accepted.1]; rfl) accepted.2
  rw [FindsDirective, found]
  refine ⟨⟨Nat.le_refl _, start.resolve_left (Nat.pos_iff_ne_zero.mp accepted.2), ?_, clear⟩, ?_⟩
  · rw [List.drop_left, directive_read_is_some_iff]
    exact ⟨opening, rest, opened, accepted.1⟩
  · exact fun earlier smaller behind => absurd behind.1 (Nat.not_le_of_lt smaller)

theorem finds_directive_refused {colonFence : Bool} {front text rest : Text}
    {opening : Directive.Opening} (start : IsLineStart (front ++ text) front.length)
    (opened : Directive.opening? text = some (opening, rest))
    (refused : ((colonFence || opening.mark != ':') && decide (0 < front.length)) = false)
    (finds : ∀ line, text = line ++ '\n' :: rest →
      FindsDirective colonFence true (front ++ (line ++ ['\n'])) rest) :
    FindsDirective colonFence true front text := by
  have below := (Directive.opening_first_line opened).2
  have single := Directive.first_line_single text
  have ended := Directive.after_first_line_ends text
  have whole := first_line_append_after text
  generalize firstLine text = line at single whole
  generalize afterFirstLine text = tail at below ended whole
  subst whole
  have nothing {place : Nat} (behind : front.length ≤ place)
      (inside : place ≤ front.length + line.length) :
      ¬DirectiveBegins colonFence (front ++ (line ++ tail)) place :=
    nothing_on_refused_line start opened single refused behind inside
  have passed {consumed : Text} (split : line ++ tail = consumed ++ rest) (present : consumed ≠ []) :
      startFrom (directiveReading colonFence) 0 front.length true (line ++ tail) =
        startFrom (directiveReading colonFence) 0 (front.length + consumed.length)
          ((consumed.getLast?.map isTerminator).getD true) rest := by
    rw [split] at opened ⊢
    exact start_from_refused present (by rw [directiveReading, opened]; rfl) refused
  rcases line_end_cases ended with rfl | ⟨more, rfl⟩
  · have present : line ++ [] ≠ [] := by
      intro empty
      rw [empty] at opened
      cases opened
    obtain rfl : rest = [] := below
    rw [FindsDirective, passed (List.append_nil _).symm present]
    rintro place ⟨behind, begins⟩
    have bound := (ends_before_le begins.1).2
    exact nothing behind (by simpa using bound) begins
  · obtain rfl : rest = more := below
    have next := finds line rfl
    have split : line ++ '\n' :: rest = line ++ ['\n'] ++ rest := by simp
    rw [FindsDirective, passed split (by simp), List.getLast?_concat]
    rw [FindsDirective, List.append_assoc, ← split, List.length_append] at next
    refine next.from_next (Nat.le_add_right _ _) ?_
    intro place behind before
    rw [List.length_append, List.length_singleton] at before
    exact nothing behind (by omega)

/-- The search for directives on what follows the front. The induction is on the
length of the text, since an opening line is passed over as a whole. -/
theorem finds_directive (colonFence : Bool) (front text : Text)
    (started : atStart = true ↔ IsLineStart (front ++ text) front.length)
    (clear : Clear (front ++ text) front.length) : FindsDirective colonFence atStart front text := by
  induction length : text.length using Nat.strong_induction_on generalizing front text atStart with
  | _ count shorter =>
  subst length
  cases reading : if atStart then Directive.opening? text else none with
  | none =>
      have plain : IsLineStart (front ++ text) front.length → Directive.opening? text = none := by
        intro start
        rwa [if_pos (started.mpr start)] at reading
      cases text with
      | nil => exact finds_directive_nil
      | cons c rest =>
          have split : front ++ c :: rest = front ++ [c] ++ rest := by simp
          apply finds_directive_plain started plain
          apply shorter rest.length (by simp) _ _ _ _ rfl
          · rw [← split, List.length_append, List.length_singleton, IsLineStart, ends_before_concat]
            simp
          · rw [← split, List.length_append, List.length_singleton]
            exact clear_next clear plain
  | some found =>
      obtain ⟨opening, rest⟩ := found
      cases atStart with
      | false => cases reading
      | true =>
          rw [if_pos rfl] at reading
          have start := started.mp rfl
          cases accepted : (colonFence || opening.mark != ':') && decide (0 < front.length) with
          | true => exact finds_directive_accepted start clear reading accepted
          | false =>
              apply finds_directive_refused start reading accepted
              rintro line rfl
              have split : front ++ (line ++ ['\n']) ++ rest = front ++ line ++ '\n' :: rest := by simp
              have bound : rest.length < (line ++ '\n' :: rest).length := by simp; omega
              have length : (front ++ (line ++ ['\n'])).length = (front ++ line).length + 1 := by
                simp [Nat.add_assoc]
              apply shorter rest.length bound _ _ _ _ rfl
              · rw [split, length, IsLineStart, ends_before_concat]
                simp [isTerminator]
              · rw [split, length]
                exact clear_behind_newline (front ++ line) rest

/-! ### Where newlines are the only line terminators -/

def BehindNewline (text : Text) (place : Nat) : Prop :=
  ∃ front rest, text = front ++ '\n' :: rest ∧ place = front.length + 1

def StartsAt (accepts : Text → Bool) (text : Text) (place : Nat) : Prop :=
  BehindNewline text place ∧ accepts (text.drop place) = true

def acceptsDirective (colonFence : Bool) (text : Text) : Bool :=
  (Directive.read? colonFence text).isSome

def acceptsDollar (text : Text) : Bool :=
  (Formula.dollar? atLineEnd text).isSome

def acceptsEnvironment (text : Text) : Bool :=
  (Formula.environment? atLineEnd text).isSome

section

variable {text : Text} (newlines : ∀ c ∈ text, isTerminator c = true → c = '\n')
include newlines

theorem ends_before_iff_newline {place : Nat} : EndsBefore text place ↔ BehindNewline text place := by
  constructor
  · rintro ⟨front, c, rest, rfl, ended, length⟩
    cases newlines c (by simp) ended
    exact ⟨front, rest, rfl, length⟩
  · rintro ⟨front, rest, rfl, length⟩
    exact ⟨front, '\n', rest, rfl, by decide, length⟩

theorem at_terminator_eq {rest : Text} (inside : rest <:+ text) : atTerminator rest = atLineEnd rest := by
  cases rest with
  | nil => rfl
  | cons c rest =>
      rw [atTerminator, atLineEnd, Bool.eq_iff_iff, beq_iff_eq]
      refine ⟨newlines c (inside.mem (by simp)), ?_⟩
      rintro rfl
      decide

theorem directive_begins_iff_newline {colonFence : Bool} {place : Nat} :
    DirectiveBegins colonFence text place ↔ StartsAt (acceptsDirective colonFence) text place := by
  rw [DirectiveBegins, ends_before_iff_newline newlines, StartsAt]
  refine and_congr_right fun behind => and_iff_left ?_
  obtain ⟨front, rest, rfl, rfl⟩ := behind
  exact clear_behind_newline front rest

/-- Whatever may stand behind a formula, the same formulas are read. -/
theorem formula_begins_iff_newline {formula : (Text → Bool) → Text → Option (Formula × Text)}
    (congr : ∀ {first second : Text → Bool} {text : Text},
      (∀ rest, rest <:+ text → first rest = second rest) → formula first text = formula second text)
    {place : Nat} : FormulaBegins (formula atTerminator) text place ↔
      StartsAt (fun here => (formula atLineEnd here).isSome) text place ∧
        frontLength (formula atLineEnd) text ≤ place := by
  have same {here : Text} (inside : here <:+ text) :
      formula atTerminator here = formula atLineEnd here :=
    congr fun rest left => at_terminator_eq newlines (left.trans inside)
  rw [FormulaBegins, ends_before_iff_newline newlines, same (List.drop_suffix place text),
    frontLength, frontLength, same (List.suffix_refl text)]
  rfl

end

/-! ### The hooks of a paragraph -/

theorem first_directive (colonFence : Bool) (text : Text) :
    IsFirst (DirectiveBegins colonFence text) (directiveStart? colonFence text) := by
  have started : true = true ↔ IsLineStart ([] ++ text) ([] : Text).length := by simp [IsLineStart]
  have finds := finds_directive colonFence [] text started
    fun earlier before => absurd before (Nat.not_lt_zero _)
  exact (IsFirst.congr fun place => and_iff_right (Nat.zero_le place)).mp finds

theorem first_dollar (text : Text) :
    IsFirst (FormulaBegins (Formula.dollar? atTerminator) text) (dollarStart? text) :=
  first_formula rfl Formula.consumes_of_dollar text

theorem first_environment (text : Text) :
    IsFirst (FormulaBegins (Formula.environment? atTerminator) text) (environmentStart? text) :=
  first_formula rfl Formula.consumes_of_environment text

/-- What interrupts a paragraph at a place. -/
inductive Interrupts (enabled : List Extension) (text : Text) (place : Nat) : Prop
  | directive
      (starts : StartsAt (acceptsDirective (enabled.contains .colonFence)) text place)
  | dollar (isEnabled : enabled.contains .dollarmath = true)
      (starts : StartsAt acceptsDollar text place)
      (behind : frontLength (Formula.dollar? atLineEnd) text ≤ place)
  | environment (isEnabled : enabled.contains .amsmath = true)
      (starts : StartsAt acceptsEnvironment text place)
      (behind : frontLength (Formula.environment? atLineEnd) text ≤ place)

theorem IsFirst.when {holds : Nat → Prop} {found : Option Nat} (first : IsFirst holds found)
    (enabled : Bool) :
    IsFirst (fun place => enabled = true ∧ holds place) (if enabled then found else none) := by
  cases enabled with
  | false => exact fun place here => Bool.false_ne_true here.1
  | true => exact (IsFirst.congr fun place => (and_iff_right rfl).symm).mp first

section

variable {text : Text} (newlines : ∀ c ∈ text, isTerminator c = true → c = '\n')
include newlines

theorem first_dollar_newline :
    IsFirst (fun place => StartsAt acceptsDollar text place ∧
      frontLength (Formula.dollar? atLineEnd) text ≤ place) (dollarStart? text) :=
  (IsFirst.congr fun _ => formula_begins_iff_newline newlines Formula.dollar_congr).mp
    (first_dollar text)

theorem first_environment_newline :
    IsFirst (fun place => StartsAt acceptsEnvironment text place ∧
      frontLength (Formula.environment? atLineEnd) text ≤ place) (environmentStart? text) :=
  (IsFirst.congr fun _ => formula_begins_iff_newline newlines Formula.environment_congr).mp
    (first_environment text)

theorem first_directive_newline (colonFence : Bool) :
    IsFirst (StartsAt (acceptsDirective colonFence) text) (directiveStart? colonFence text) :=
  (IsFirst.congr fun _ => directive_begins_iff_newline newlines).mp (first_directive colonFence text)

theorem first_interruption (enabled : List Extension) :
    IsFirst (Interrupts enabled text) (interruption? enabled text) := by
  have first := is_first_least (first_directive_newline newlines (enabled.contains .colonFence)) <|
    is_first_least ((first_dollar_newline newlines).when (enabled.contains .dollarmath))
      ((first_environment_newline newlines).when (enabled.contains .amsmath))
  refine (IsFirst.congr fun place => ⟨?_, ?_⟩).mp first
  · rintro (starts | ⟨isEnabled, starts, behind⟩ | ⟨isEnabled, starts, behind⟩)
    · exact .directive starts
    · exact .dollar isEnabled starts behind
    · exact .environment isEnabled starts behind
  · rintro (starts | ⟨isEnabled, starts, behind⟩ | ⟨isEnabled, starts, behind⟩)
    · exact .inl starts
    · exact .inr (.inl ⟨isEnabled, starts, behind⟩)
    · exact .inr (.inr ⟨isEnabled, starts, behind⟩)

end

/-- Where the hooks find a block inside a paragraph. With newlines only, the hook for
directives finds the first place from which one is read; the hooks for formulas do
exactly if no formula begins inside of the one that is read at the front. -/
theorem interruptions_first (text : Text) :
    (∀ colonFence, IsFirst (DirectiveBegins colonFence text) (directiveStart? colonFence text)) ∧
      IsFirst (FormulaBegins (Formula.dollar? atTerminator) text) (dollarStart? text) ∧
      IsFirst (FormulaBegins (Formula.environment? atTerminator) text) (environmentStart? text) ∧
      ((∀ c ∈ text, isTerminator c = true → c = '\n') →
        (∀ colonFence, IsFirst (StartsAt (acceptsDirective colonFence) text)
          (directiveStart? colonFence text)) ∧
        (IsFirst (StartsAt acceptsDollar text) (dollarStart? text) ↔
          ∀ place, StartsAt acceptsDollar text place →
            frontLength (Formula.dollar? atLineEnd) text ≤ place) ∧
        (IsFirst (StartsAt acceptsEnvironment text) (environmentStart? text) ↔
          ∀ place, StartsAt acceptsEnvironment text place →
            frontLength (Formula.environment? atLineEnd) text ≤ place) ∧
        ∀ enabled, IsFirst (Interrupts enabled text) (interruption? enabled text)) := by
  refine ⟨fun colonFence => first_directive colonFence text, first_dollar text,
    first_environment text, fun newlines => ⟨?_, ?_, ?_, ?_⟩⟩
  · exact first_directive_newline newlines
  · exact (first_dollar_newline newlines).restrict_iff
  · exact (first_environment_newline newlines).restrict_iff
  · exact first_interruption newlines

/-- The first of three blocks below a line of text cuts the paragraph. -/
theorem interruptions_first_below_text :
    let text := "a\n:::\x7bnote\x7d\nb\n:::\n$$ x $$\n".toList
    (∀ c ∈ text, isTerminator c = true → c = '\n') ∧
      IsFirst (StartsAt (acceptsDirective true) text) (directiveStart? true text) ∧
      directiveStart? true text = some 2 ∧ directiveStart? false text = none ∧
      dollarStart? text = some 18 ∧ interruption? [.dollarmath] text = some 18 := by
  intro text
  have newlines : ∀ c ∈ text, isTerminator c = true → c = '\n' :=
    only_newlines_of_all (by decide)
  exact ⟨newlines, ((interruptions_first text).2.2.2 newlines).1 true, by decide, by decide,
    by decide, by decide⟩

/-- A formula at the front hides the one that begins inside of it. -/
theorem dollar_start_hidden :
    let text := "$$ x\n$$ y $$\n".toList
    StartsAt acceptsDollar text 5 ∧ dollarStart? text = none ∧
      ¬IsFirst (StartsAt acceptsDollar text) (dollarStart? text) := by
  intro text
  have starts : StartsAt acceptsDollar text 5 :=
    ⟨⟨"$$ x".toList, "$$ y $$\n".toList, by decide, by decide⟩, by decide⟩
  have missed : dollarStart? text = none := by decide
  refine ⟨starts, missed, fun first => ?_⟩
  rw [missed] at first
  exact first 5 starts

end BlockReader

end LessonBook
