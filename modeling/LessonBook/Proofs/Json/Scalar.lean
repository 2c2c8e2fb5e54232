import LessonBook.Json.Printer
import LessonBook.Json.Reader
import LessonBook.Proofs.Number.Numeral
import LessonBook.Proofs.Text.Search

/-!
Strings and numerals in JSON texts. A string is read back as it was, whatever
its characters are, and a numeral is read to its end.
-/

namespace LessonBook.Json

open Text Recognizer

/-! ### Escaped characters -/

theorem hex_value_digit {value : Nat} (small : value < 16) :
    hexValue? (hexDigit value) = some value := by
  have all : ∀ digit < 16, hexValue? (hexDigit digit) = some digit := by decide
  exact all value small

theorem code_unit_append {value : Nat} (small : value < 65536) (rest : Text) :
    codeUnit? (hexDigit (value / 4096 % 16) :: hexDigit (value / 256 % 16) ::
      hexDigit (value / 16 % 16) :: hexDigit (value % 16) :: rest) = some (value, rest) := by
  simp only [codeUnit?, hex_value_digit (Nat.mod_lt _ (by decide : 0 < 16)), Option.bind_eq_bind,
    Option.bind_some, Option.some.injEq, Prod.mk.injEq, and_true]
  omega

theorem escape_hex {c : Char} (control : c.toNat < 32) (rest : Text) :
    escape? ((hexEscape c.toNat).tail ++ rest) = some (c, rest) := by
  change unicodeEscape? (hexDigit _ :: hexDigit _ :: hexDigit _ :: hexDigit _ :: rest) = _
  rw [unicodeEscape?, code_unit_append (by omega), Option.bind_eq_bind, Option.bind_some]
  dsimp only
  rw [if_neg (by simp; omega), if_neg (by simp; omega), Char.ofNat_toNat]

/-- A character is written behind a backslash, or as it stands. -/
theorem escape_char_cases (c : Char) :
    (∃ letters, escapeChar c = '\\' :: letters ∧
      ∀ rest, escape? (letters ++ rest) = some (c, rest)) ∨
    escapeChar c = [c] ∧ c ≠ '"' ∧ c ≠ '\\' ∧ 32 ≤ c.toNat := by
  have named {d letter : Char} (same : (c == d) = true)
      (read : ∀ rest, escape? (letter :: rest) = some (d, rest)) :
      ∃ letters, ['\\', letter] = '\\' :: letters ∧
        ∀ rest, escape? (letters ++ rest) = some (c, rest) := by
    rw [beq_iff_eq] at same
    subst same
    exact ⟨[letter], rfl, read⟩
  unfold escapeChar
  by_cases quoteMark : (c == '"') = true
  · rw [if_pos quoteMark]
    exact .inl (named quoteMark fun _ => rfl)
  rw [if_neg quoteMark]
  by_cases backslash : (c == '\\') = true
  · rw [if_pos backslash]
    exact .inl (named backslash fun _ => rfl)
  rw [if_neg backslash]
  by_cases newline : (c == '\n') = true
  · rw [if_pos newline]
    exact .inl (named newline fun _ => rfl)
  rw [if_neg newline]
  by_cases carriage : (c == '\r') = true
  · rw [if_pos carriage]
    exact .inl (named carriage fun _ => rfl)
  rw [if_neg carriage]
  by_cases tab : (c == '\t') = true
  · rw [if_pos tab]
    exact .inl (named tab fun _ => rfl)
  rw [if_neg tab]
  by_cases backspace : (c == '\x08') = true
  · rw [if_pos backspace]
    exact .inl (named backspace fun _ => rfl)
  rw [if_neg backspace]
  by_cases feed : (c == '\x0c') = true
  · rw [if_pos feed]
    exact .inl (named feed fun _ => rfl)
  rw [if_neg feed]
  by_cases control : c.toNat < 32
  · rw [if_pos control]
    exact .inl ⟨(hexEscape c.toNat).tail, rfl, escape_hex control⟩
  · rw [if_neg control]
    exact .inr ⟨rfl, by simpa using quoteMark, by simpa using backslash, not_lt.mp control⟩

theorem string_body_char (c : Char) (fuel : Nat) (rest : Text) :
    stringBody? (fuel + 1) (escapeChar c ++ rest) =
      (stringBody? fuel rest).map fun read => (c :: read.1, read.2) := by
  obtain ⟨letters, written, read⟩ | ⟨written, notQuote, notBackslash, printable⟩ :=
    escape_char_cases c
  · rw [written, List.cons_append, stringBody?, read, Option.bind_eq_bind, Option.bind_some]
    dsimp only
    cases stringBody? fuel rest <;> rfl
  · rw [written, List.singleton_append, stringBody?, if_neg (not_lt.mpr printable)]
    · cases stringBody? fuel rest <;> rfl
    · exact notQuote
    · exact notBackslash

theorem string_body_text {fuel : Nat} {text : Text} (enough : text.length < fuel) (rest : Text) :
    stringBody? fuel (text.flatMap escapeChar ++ '"' :: rest) = some (text, rest) := by
  induction text generalizing fuel with
  | nil =>
      obtain ⟨fuel, rfl⟩ := Nat.exists_eq_succ_of_ne_zero (by omega : fuel ≠ 0)
      rfl
  | cons c text induction =>
      obtain ⟨fuel, rfl⟩ := Nat.exists_eq_succ_of_ne_zero (by omega : fuel ≠ 0)
      rw [List.flatMap_cons, List.append_assoc, string_body_char, induction (by simpa using enough)]
      rfl

theorem length_le_escaped (text : Text) : text.length ≤ (text.flatMap escapeChar).length := by
  induction text with
  | nil => exact Nat.le_refl _
  | cons c text induction =>
      have present : 1 ≤ (escapeChar c).length := by
        obtain ⟨letters, written, -⟩ | ⟨written, -⟩ := escape_char_cases c <;> simp [written]
      rw [List.flatMap_cons, List.length_append, List.length_cons]
      omega

theorem string_body_quote (text rest : Text) :
    let quoted := text.flatMap escapeChar ++ '"' :: rest
    stringBody? (quoted.length + 1) quoted = some (text, rest) := by
  apply string_body_text
  have := length_le_escaped text
  rw [List.length_append]
  omega

theorem quote_append (text rest : Text) :
    quote text ++ rest = '"' :: (text.flatMap escapeChar ++ '"' :: rest) := by
  simp [quote]

/-! ### The end of a numeral -/

open Binary64

def EndsNumeral (rest : Text) : Prop :=
  ∀ c ∈ rest.head?, c.isDigit = false ∧ c ≠ '.' ∧ c ≠ 'e' ∧ c ≠ 'E'

theorem EndsNumeral.ends_fraction {rest : Text} (ends : EndsNumeral rest) :
    Numeral.EndsFraction rest :=
  fun c first => ⟨(ends c first).1, (ends c first).2.1⟩

def afterSign (text : Text) : Text :=
  match text with
  | '-' :: rest => rest
  | _ => text

def afterExponent? (text : Text) : Option Text :=
  match text with
  | e :: rest =>
      if e == 'e' || e == 'E' then
        some1 Char.isDigit (match rest with
          | '+' :: digits => digits
          | '-' :: digits => digits
          | _ => rest)
      else some text
  | [] => some text

def afterFraction? (text : Text) : Option Text :=
  match text with
  | '.' :: rest => (some1 Char.isDigit rest).bind afterExponent?
  | _ => afterExponent? text

theorem numeral_eq (text : Text) :
    numeral? text = match afterSign text with
      | '0' :: rest => afterFraction? rest
      | unsigned => (some1 Char.isDigit unsigned).bind afterFraction? := by
  have signed : numeral? text = numeral? ('-' :: afterSign text) := rfl
  rw [signed]
  generalize afterSign text = unsigned
  unfold numeral?
  simp only []
  split
  · rfl
  · rename_i other
    split
    · exact (other _ rfl).elim
    · rfl

theorem some1_digits {digits rest : Text} (present : digits ≠ []) (spelled : AllDigits digits)
    (stops : StopsDigits rest) : some1 Char.isDigit (digits ++ rest) = some rest := by
  obtain ⟨c, more, rfl⟩ := List.exists_cons_of_ne_nil present
  obtain ⟨digit, more_spelled⟩ := List.forall_mem_cons.mp spelled
  rw [some1, List.cons_append, one, if_pos digit, Option.map_some, drop_digits more_spelled stops]

theorem after_exponent_text {exponent : Option Int} {rest : Text} (ends : EndsNumeral rest) :
    afterExponent? (Numeral.exponentText exponent ++ rest) = some rest := by
  cases exponent with
  | none =>
      cases rest with
      | nil => rfl
      | cons c rest =>
          obtain ⟨-, -, small, capital⟩ := ends c rfl
          simp [Numeral.exponentText, afterExponent?, small, capital]
  | some exponent =>
      have read : some1 Char.isDigit (Text.ofNat exponent.natAbs ++ rest) = some rest :=
        some1_digits Nat.toDigits_ne_nil (all_digits_of_nat _) ends.ends_fraction.stops
      rw [Numeral.exponentText]
      split <;> exact read

theorem after_fraction_text {fraction rest : Text} (spelled : AllDigits fraction)
    (ends : Numeral.EndsFraction rest) :
    afterFraction? (Numeral.fractionText fraction ++ rest) = afterExponent? rest := by
  unfold Numeral.fractionText
  split
  · rw [List.nil_append]
    unfold afterFraction?
    split
    · exact absurd rfl (ends _ rfl).2
    · rfl
  · rename_i present
    rw [List.cons_append, afterFraction?, some1_digits (by simpa using present) spelled ends.stops,
      Option.bind_some]

theorem after_sign_text {c : Char} (digit : c.isDigit = true) (negative : Bool) (rest : Text) :
    afterSign (Numeral.signText negative ++ c :: rest) = c :: rest := by
  cases negative with
  | true => rfl
  | false =>
      change afterSign (c :: rest) = c :: rest
      unfold afterSign
      split
      · rename_i same
        cases same
        cases digit
      · rfl

theorem exponent_text_append_ends (exponent : Option Int) {rest : Text} (ends : EndsNumeral rest) :
    Numeral.EndsFraction (Numeral.exponentText exponent ++ rest) := by
  cases exponent with
  | none => exact ends.ends_fraction
  | some exponent => exact Numeral.exponent_text_ends (some exponent)

/-- A numeral is read to its end, if nothing stands behind it that would prolong it. -/
theorem numeral_append {numeral : Numeral} (plain : numeral.IsPlain) {rest : Text}
    (ends : EndsNumeral rest) : numeral? (numeral.text ++ rest) = some rest := by
  have exponentEnds := exponent_text_append_ends numeral.exponent ends
  have stops := Numeral.fraction_text_stops numeral.fraction exponentEnds.stops
  have behind := after_fraction_text plain.fraction_digits exponentEnds
  rw [after_exponent_text ends] at behind
  have unsigned : afterSign (numeral.text ++ rest) = numeral.whole ++
      (Numeral.fractionText numeral.fraction ++ (Numeral.exponentText numeral.exponent ++ rest)) := by
    obtain ⟨c, more, whole, digit⟩ := plain.whole_cons
    rw [Numeral.text, whole]
    simp only [List.append_assoc, List.cons_append]
    exact after_sign_text digit _ _
  rw [numeral_eq, unsigned]
  obtain zero | ⟨c, first, other⟩ := plain.whole_first
  · rw [zero]
    exact behind
  · have present : numeral.whole ≠ [] := List.ne_nil_of_mem (List.mem_of_mem_head? first)
    have read := some1_digits present plain.whole_digits stops
    obtain ⟨more, spelled⟩ := List.head?_eq_some_iff.mp first
    rw [spelled] at read ⊢
    split
    · rename_i same
      exact absurd (List.cons.inj same).1 other
    · rw [read, Option.bind_some, behind]

end LessonBook.Json
