import LessonBook.Proofs.Text.Search

/-!
The weight of a text is the number of its characters other than spaces. What is
left behind such a character is lighter.
-/

namespace LessonBook

namespace Text

def weight (text : Text) : Nat :=
  text.countP (· != ' ')

theorem weight_append (front back : Text) : weight (front ++ back) = weight front + weight back :=
  List.countP_append

theorem weight_cons {c : Char} (written : c ≠ ' ') (text : Text) :
    weight (c :: text) = weight text + 1 :=
  List.countP_cons_of_pos (by simpa using written)

theorem weight_cons_le {first second : Text} (lighter : weight first ≤ weight second) (c : Char) :
    weight (c :: first) ≤ weight (c :: second) := by
  rw [weight, weight, List.countP_cons, List.countP_cons]
  exact Nat.add_le_add_right lighter _

theorem weight_newline (text : Text) : weight ('\n' :: text) = weight text + 1 :=
  weight_cons (by decide) text

theorem weight_le_of_sublist {part text : Text} (inside : part.Sublist text) :
    weight part ≤ weight text :=
  inside.countP_le

theorem weight_le_length (text : Text) : weight text ≤ text.length :=
  List.countP_le_length

theorem weight_spaces_append {spaces : Text} (blank : ∀ c ∈ spaces, c = ' ') (text : Text) :
    weight (spaces ++ text) = weight text := by
  have none : weight spaces = 0 := List.countP_eq_zero.mpr fun c member => by simp [blank c member]
  rw [weight_append, none, Nat.zero_add]

end Text

namespace Recognizer

open Text

def Consumes (text rest : Text) : Prop :=
  ∃ c below, c ≠ ' ' ∧ c :: below <:+ text ∧ rest <:+ below

namespace Consumes

variable {whole text rest left : Text}

theorem lighter (consumes : Consumes text rest) : weight rest < weight text := by
  obtain ⟨c, below, written, inside, behind⟩ := consumes
  have bound := weight_le_of_sublist inside.sublist
  rw [weight_cons written] at bound
  exact Nat.lt_of_le_of_lt (weight_le_of_sublist behind.sublist) bound

theorem suffix (consumes : Consumes text rest) : rest <:+ text := by
  obtain ⟨c, below, -, inside, behind⟩ := consumes
  exact behind.trans ((List.suffix_cons c below).trans inside)

theorem shorter (consumes : Consumes text rest) : rest.length < text.length := by
  obtain ⟨c, below, -, inside, behind⟩ := consumes
  exact Nat.lt_of_le_of_lt behind.length_le inside.length_le

theorem of_suffix (consumes : Consumes text rest) (inside : text <:+ whole) : Consumes whole rest := by
  obtain ⟨c, below, written, within, behind⟩ := consumes
  exact ⟨c, below, written, within.trans inside, behind⟩

theorem trans_suffix (consumes : Consumes text rest) (behind : left <:+ rest) : Consumes text left := by
  obtain ⟨c, below, written, inside, within⟩ := consumes
  exact ⟨c, below, written, inside, behind.trans within⟩

end Consumes

variable {text rest : Text}

theorem consumes_cons {c : Char} (written : c ≠ ' ') (rest : Text) : Consumes (c :: rest) rest :=
  ⟨c, rest, written, List.suffix_refl _, List.suffix_refl _⟩

theorem consumes_append_iff {raw : Text} :
    Consumes (raw ++ rest) rest ↔ ∃ c ∈ raw, c ≠ ' ' := by
  constructor
  · rintro ⟨c, below, written, ⟨front, split⟩, inside, rfl⟩
    rw [← List.cons_append, ← List.append_assoc] at split
    exact ⟨c, List.append_cancel_right split ▸ by simp, written⟩
  · rintro ⟨c, member, written⟩
    obtain ⟨front, back, rfl⟩ := List.append_of_mem member
    exact ⟨c, back ++ rest, written, ⟨front, by simp⟩, List.suffix_append back rest⟩

theorem consumes_of_one {inClass : Char → Bool} (outside : inClass ' ' = false)
    (read : one inClass text = some rest) : Consumes text rest := by
  cases text with
  | nil => cases read
  | cons c text =>
      rw [one] at read
      split at read
      · rename_i inside
        cases read
        refine consumes_cons ?_ rest
        rintro rfl
        rw [outside] at inside
        cases inside
      · cases read

theorem consumes_of_char {wanted : Char} (written : wanted ≠ ' ') (read : char wanted text = some rest) :
    Consumes text rest :=
  consumes_of_one (by simpa using written.symm) read

theorem consumes_of_word {c : Char} {letters : Text} (written : c ≠ ' ')
    (read : word (c :: letters) text = some rest) : Consumes text rest := by
  rw [word_eq_some_iff.mp read, List.cons_append]
  exact (consumes_cons written _).trans_suffix (List.suffix_append letters rest)

theorem consumes_of_word_any_case {c : Char} {letters : Text} (written : c.toLower ≠ ' ')
    (read : wordAnyCase (c :: letters) text = some rest) : Consumes text rest := by
  cases text with
  | nil => cases read
  | cons d text =>
      rw [wordAnyCase] at read
      split at read
      · rename_i same
        rw [beq_iff_eq] at same
        refine (consumes_cons ?_ text).trans_suffix (suffix_of_word_any_case read)
        rintro rfl
        exact written same
      · cases read

end Recognizer

end LessonBook
