import LessonBook.Proofs.Markup.Remainder

/-!
What ends a formula is asked only of the texts that stand behind one.
-/

namespace LessonBook

open Text Recognizer

namespace Formula

variable {first second : Text → Bool} {text : Text}

theorem label_congr (same : ∀ rest, rest <:+ text → first rest = second rest) :
    label? first text = label? second text := by
  have skipped := List.dropWhile_suffix (l := text) isSpaceOrTab
  rw [← skipSpacesAndTabs] at skipped
  unfold label?
  split
  · rename_i inside opened
    rw [opened] at skipped
    split
    · rename_i after closed
      have left : skipSpacesAndTabs after <:+ text :=
        (List.dropWhile_suffix _).trans <| (List.suffix_cons ')' after).trans <|
          (closed ▸ List.dropWhile_suffix _ : ')' :: after <:+ inside).trans <|
          (List.suffix_cons '(' inside).trans skipped
      simp only [same _ left]
    · rfl
  · rw [same _ skipped]

theorem dollar_body_congr (same : ∀ rest, rest <:+ text → first rest = second rest) :
    dollarBody? first text = dollarBody? second text := by
  induction text with
  | nil => rfl
  | cons c text induction =>
      have labels : (word ['$', '$'] (c :: text)).bind (label? first) =
          (word ['$', '$'] (c :: text)).bind (label? second) := by
        cases signs : word ['$', '$'] (c :: text) with
        | none => rfl
        | some behind =>
            exact label_congr fun rest left => same rest (left.trans (suffix_of_word signs))
      rw [dollarBody?, dollarBody?, labels,
        induction fun rest left => same rest (left.trans (List.suffix_cons c text))]

/-- Only what is left behind a formula has to end a line. -/
theorem dollar_congr (same : ∀ rest, rest <:+ text → first rest = second rest) :
    dollar? first text = dollar? second text := by
  simp only [dollar?, Option.bind_eq_bind]
  cases signs : word ['$', '$'] (indent text) with
  | none => rfl
  | some opened =>
      simp only [Option.bind_some]
      rw [dollar_body_congr fun rest left =>
        same rest (left.trans ((suffix_of_word signs).trans (indent_suffix text)))]

theorem environment_end_congr (same : ∀ rest, rest <:+ text → first rest = second rest)
    (name : Text) : environmentEnd? first name text = environmentEnd? second name text := by
  simp only [environmentEnd?, Option.bind_eq_bind]
  cases command : word ['\\', 'e', 'n', 'd', '\x7b'] text with
  | none => rfl
  | some named =>
      simp only [Option.bind_some]
      cases found : word name named with
      | none => rfl
      | some closed =>
          simp only [Option.bind_some]
          cases brace : char '\x7d' closed with
          | none => rfl
          | some after =>
              have left : skipSpacesAndTabs after <:+ text :=
                (List.dropWhile_suffix _).trans <| (suffix_of_char brace).trans <|
                  (suffix_of_word found).trans (suffix_of_word command)
              simp only [Option.bind_some, same _ left]

theorem environment_body_congr (same : ∀ rest, rest <:+ text → first rest = second rest)
    (name : Text) : firstMatch (environmentEnd? first name) text =
      firstMatch (environmentEnd? second name) text := by
  induction text with
  | nil => rw [firstMatch, firstMatch, environment_end_congr same name]
  | cons c text induction =>
      rw [firstMatch, firstMatch, environment_end_congr same name,
        induction fun rest left => same rest (left.trans (List.suffix_cons c text))]

theorem environment_congr (same : ∀ rest, rest <:+ text → first rest = second rest) :
    environment? first text = environment? second text := by
  simp only [environment?, Option.bind_eq_bind]
  cases command : word ['\\', 'b', 'e', 'g', 'i', 'n', '\x7b'] (indent text) with
  | none => rfl
  | some opened =>
      have left := (List.dropWhile_suffix (l := opened) Char.isAlpha).trans
        ((suffix_of_word command).trans (indent_suffix text))
      have bodies {named : Text} (inside : named <:+ text) (name : Text) :
          (char '\x7d' named).bind (fun body => firstMatch (environmentEnd? first name) body) =
            (char '\x7d' named).bind (fun body => firstMatch (environmentEnd? second name) body) := by
        cases brace : char '\x7d' named with
        | none => rfl
        | some body =>
            exact environment_body_congr
              (fun rest within => same rest (within.trans ((suffix_of_char brace).trans inside))) name
      simp only [Option.bind_some, ← Option.bind_assoc]
      split
      · rfl
      · split
        · rename_i named
          rw [named] at left
          rw [bodies ((List.suffix_cons '*' _).trans left)]
        · rw [bodies left]

end Formula

end LessonBook
