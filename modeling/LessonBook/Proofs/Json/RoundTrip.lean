import LessonBook.Proofs.Json.KeyOrder
import LessonBook.Proofs.Json.Scalar

/-!
Reading what was written. A value comes back as it was, with the keys of every
object in the order in which they are written.
-/

namespace LessonBook.Json

open Text Recognizer Record

/-- The values that a text spells in full: all numbers are finite, no object has
a key twice, and nothing holds bytes. -/
inductive IsPlain : Json → Prop
  | null : IsPlain null
  | bool (value : Bool) : IsPlain (bool value)
  | number {value : Binary64} (finite : value.IsStandard) : IsPlain (number value)
  | string (value : Text) : IsPlain (string value)
  | array {items : List Json} (each : ∀ item ∈ items, IsPlain item) : IsPlain (array items)
  | object {entries : Record Json} (distinct : (keys entries).Nodup)
      (each : ∀ entry ∈ entries, IsPlain entry.2) : IsPlain (object entries)

theorem plain_integer (negative : Bool) {value : Nat} (small : value < 2 ^ 53) :
    IsPlain (number (.ofFraction negative value 1)) :=
  .number (Binary64.standard_of_integer negative small)

/-- Equality of values up to the order of keys, with equal numbers. -/
inductive Alike : Json → Json → Prop
  | null : Alike null null
  | bool (value : Bool) : Alike (bool value) (bool value)
  | number {value other : Binary64} (equal : Binary64.same other value = true) :
      Alike (number value) (number other)
  | string (value : Text) : Alike (string value) (string value)
  | array {items others : List Json} (each : List.Forall₂ Alike items others) :
      Alike (array items) (array others)
  | object {entries ordered others : Record Json} (same : ordered.Perm entries)
      (each : Entrywise Alike ordered others) : Alike (object entries) (object others)

/-- What is written for a value is read as a like value, and what follows is left. -/
def ReadsBack (indent : Nat) (value : Json) : Prop :=
  ∀ depth, ∃ read, Alike value read ∧ ∀ fuel rest,
    (print indent depth value).length ≤ fuel → EndsNumeral rest →
      value? (fuel + 1) (print indent depth value ++ rest) = some (read, rest)

/-! ### Blanks between the parts -/

theorem skip_new_line (indent depth : Nat) (text : Text) :
    skipJsonBlanks (newLine indent depth ++ text) = skipJsonBlanks text := by
  unfold newLine skipJsonBlanks
  split
  · rfl
  · apply List.dropWhile_append_of_pos
    intro c member
    rcases List.mem_cons.mp member with rfl | member
    · rfl
    · rw [List.eq_of_mem_replicate member]
      rfl

theorem skip_of_not_blank {c : Char} (other : isJsonBlank c = false) (text : Text) :
    skipJsonBlanks (c :: text) = c :: text := by
  rw [skipJsonBlanks, List.dropWhile_cons, other]
  rfl

theorem value_of_skip {text other : Text} (same : skipJsonBlanks text = skipJsonBlanks other)
    (fuel : Nat) : value? fuel text = value? fuel other := by
  cases fuel with
  | zero => rfl
  | succ fuel => rw [value?, value?, same]

theorem ends_numeral_new_line {c : Char} (other : c.isDigit = false ∧ c ≠ '.' ∧ c ≠ 'e' ∧ c ≠ 'E')
    (indent depth : Nat) (rest : Text) : EndsNumeral (newLine indent depth ++ c :: rest) := by
  unfold newLine
  split
  · rintro d ⟨⟩
    exact other
  · rintro d ⟨⟩
    decide

/-! ### What the first character decides -/

theorem value_quote (fuel : Nat) (text : Text) :
    value? (fuel + 1) ('"' :: text) =
      (stringBody? (text.length + 1) text).map fun read => (string read.1, read.2) := by
  rw [value?, skip_of_not_blank (by decide)]
  simp only []
  cases stringBody? (text.length + 1) text <;> rfl

theorem value_bracket {text : Text} (occupied : ∀ after, skipJsonBlanks text ≠ ']' :: after)
    (fuel : Nat) : value? (fuel + 1) ('[' :: text) =
      (items? fuel text).map fun read => (array read.1, read.2) := by
  rw [value?, skip_of_not_blank (by decide)]
  simp only []
  cases items? fuel text <;> rfl

theorem value_brace {text : Text} (occupied : ∀ after, skipJsonBlanks text ≠ '\x7d' :: after)
    (fuel : Nat) : value? (fuel + 1) ('\x7b' :: text) =
      (entries? fuel [] text).map fun read => (object read.1, read.2) := by
  rw [value?, skip_of_not_blank (by decide)]
  simp only []
  cases entries? fuel [] text <;> rfl

theorem word_of_other {letter c : Char} (other : letter ≠ c) (letters text : Text) :
    word (letter :: letters) (c :: text) = none := by
  rw [word, if_neg (by simpa using other)]

theorem value_of_numeral {c : Char} (first : c.isDigit = true ∨ c = '-') (fuel : Nat) (text : Text) :
    value? (fuel + 1) (c :: text) = (numeral? (c :: text)).map fun rest =>
      (number (Binary64.ofNumeral (before (c :: text) rest)), rest) := by
  have other (d : Char) (letter : d.isDigit = false) (notMinus : d ≠ '-') : d ≠ c := by
    rintro rfl
    rcases first with digit | minus
    · rw [digit] at letter
      cases letter
    · exact notMinus minus
  have visible : isJsonBlank c = false := by
    simp [isJsonBlank, (other ' ' rfl (by decide)).symm, (other '\n' rfl (by decide)).symm,
      (other '\r' rfl (by decide)).symm, (other '\t' rfl (by decide)).symm]
  rw [value?, skip_of_not_blank visible]
  split
  · rename_i same
    cases same
  · rename_i same
    exact absurd (List.cons.inj same).1.symm (other _ rfl (by decide))
  · rename_i same
    exact absurd (List.cons.inj same).1.symm (other _ rfl (by decide))
  · rename_i same
    exact absurd (List.cons.inj same).1.symm (other _ rfl (by decide))
  · rw [word_of_other (other 't' rfl (by decide)), word_of_other (other 'f' rfl (by decide)),
      word_of_other (other 'n' rfl (by decide))]
    rfl

/-! ### Values without parts -/

theorem reads_back_null (indent : Nat) : ReadsBack indent null :=
  fun _ => ⟨null, .null, fun _ _ _ _ => rfl⟩

theorem reads_back_bool (indent : Nat) (value : Bool) : ReadsBack indent (bool value) :=
  fun _ => ⟨bool value, .bool value, fun _ _ _ _ => by cases value <;> rfl⟩

theorem reads_back_string (indent : Nat) (value : Text) : ReadsBack indent (string value) := by
  refine fun depth => ⟨string value, .string value, fun fuel rest _ _ => ?_⟩
  have read := string_body_quote value rest
  dsimp only at read
  rw [print, quote_append, value_quote, read]
  rfl

theorem numeral_text_cons {numeral : Binary64.Numeral} (plain : numeral.IsPlain) :
    ∃ c more, numeral.text = c :: more ∧ (c.isDigit = true ∨ c = '-') := by
  obtain ⟨c, more, whole, digit⟩ := plain.whole_cons
  rw [Binary64.Numeral.text, whole]
  cases numeral.negative with
  | true => exact ⟨_, _, rfl, .inr rfl⟩
  | false => exact ⟨_, _, rfl, .inl digit⟩

theorem reads_back_number (indent : Nat) {value : Binary64} (finite : value.IsStandard) :
    ReadsBack indent (number value) := by
  obtain ⟨numeral, plain, text, equal⟩ := Binary64.to_text_reads finite
  refine fun depth => ⟨number (Binary64.ofNumeral value.toText), .number equal,
    fun fuel rest _ ends => ?_⟩
  have written : print indent depth (number value) = numeral.text := by
    rw [text, print]
    cases value with
    | finite => rfl
    | infinite | nan => exact finite.elim
  have read := numeral_append plain ends
  have whole := before_append numeral.text rest
  rw [written, ← text]
  obtain ⟨c, more, spelled, first⟩ := numeral_text_cons plain
  rw [spelled, List.cons_append] at read whole ⊢
  rw [value_of_numeral first, read, Option.map_some, whole]

/-! ### Arrays -/

def itemsText (indent depth : Nat) (item : Json) (items : List Json) (closing : Nat) : Text :=
  newLine indent depth ++ print indent depth item ++ printItems indent depth items ++
    newLine indent closing ++ [']']

theorem items_text_one (indent depth : Nat) (item : Json) (closing : Nat) (rest : Text) :
    itemsText indent depth item [] closing ++ rest =
      newLine indent depth ++ (print indent depth item ++ (newLine indent closing ++ ']' :: rest)) := by
  simp [itemsText, printItems]

theorem items_text_more (indent depth : Nat) (item next : Json) (items : List Json) (closing : Nat)
    (rest : Text) :
    itemsText indent depth item (next :: items) closing ++ rest =
      newLine indent depth ++ (print indent depth item ++
        ',' :: (itemsText indent depth next items closing ++ rest)) := by
  simp [itemsText, printItems]

theorem items_read {indent : Nat} {item : Json} {items : List Json}
    (each : ∀ held ∈ item :: items, ReadsBack indent held) (depth closing : Nat) :
    ∃ reads, List.Forall₂ Alike (item :: items) reads ∧ ∀ fuel rest,
      (itemsText indent depth item items closing).length ≤ fuel →
        items? (fuel + 1) (itemsText indent depth item items closing ++ rest) =
          some (reads, rest) := by
  induction items generalizing item with
  | nil =>
      obtain ⟨read, like, back⟩ := each item List.mem_cons_self depth
      refine ⟨[read], .cons like .nil, fun fuel rest enough => ?_⟩
      have size := congrArg List.length (items_text_one indent depth item closing [])
      simp only [List.length_append, List.length_cons, List.length_nil] at size
      obtain ⟨fuel, rfl⟩ := Nat.exists_eq_succ_of_ne_zero (by omega : fuel ≠ 0)
      have first := back fuel (newLine indent closing ++ ']' :: rest) (by omega)
        (ends_numeral_new_line (by decide) _ _ _)
      rw [items_text_one, items?, value_of_skip (skip_new_line _ _ _), first, Option.bind_eq_bind,
        Option.bind_some]
      dsimp only
      rw [skip_new_line, skip_of_not_blank (by decide)]
      rfl
  | cons next items induction =>
      obtain ⟨read, like, back⟩ := each item List.mem_cons_self depth
      obtain ⟨reads, likes, run⟩ := induction fun held member =>
        each held (List.mem_cons_of_mem _ member)
      refine ⟨read :: reads, .cons like likes, fun fuel rest enough => ?_⟩
      have size := congrArg List.length (items_text_more indent depth item next items closing [])
      simp only [List.length_append, List.length_cons, List.length_nil] at size
      obtain ⟨fuel, rfl⟩ := Nat.exists_eq_succ_of_ne_zero (by omega : fuel ≠ 0)
      have first := back fuel (',' :: (itemsText indent depth next items closing ++ rest)) (by omega)
        (by rintro c ⟨⟩; decide)
      rw [items_text_more, items?, value_of_skip (skip_new_line _ _ _), first, Option.bind_eq_bind,
        Option.bind_some]
      dsimp only
      rw [skip_of_not_blank (by decide)]
      simp only []
      rw [run fuel rest (by omega)]
      rfl

theorem print_occupied {indent : Nat} {value : Json} (back : ReadsBack indent value) (depth : Nat)
    {rest : Text} (ends : EndsNumeral rest) (after : Text) :
    skipJsonBlanks (print indent depth value ++ rest) ≠ ']' :: after := by
  intro empty
  obtain ⟨read, -, run⟩ := back depth
  have present := run _ rest (Nat.le_refl _) ends
  rw [value_of_skip (empty.trans (skip_of_not_blank (by decide) after).symm)] at present
  cases present

theorem items_text_occupied {indent : Nat} {item : Json} (back : ReadsBack indent item)
    (depth : Nat) (items : List Json) (closing : Nat) (rest after : Text) :
    skipJsonBlanks (itemsText indent depth item items closing ++ rest) ≠ ']' :: after := by
  cases items with
  | nil =>
      rw [items_text_one, skip_new_line]
      exact print_occupied back depth (ends_numeral_new_line (by decide) _ _ _) after
  | cons next items =>
      rw [items_text_more, skip_new_line]
      exact print_occupied back depth (by rintro c ⟨⟩; decide) after

theorem reads_back_array {indent : Nat} {items : List Json}
    (each : ∀ item ∈ items, ReadsBack indent item) : ReadsBack indent (array items) := by
  intro depth
  cases items with
  | nil => exact ⟨array [], .array .nil, fun _ _ _ _ => rfl⟩
  | cons item items =>
      obtain ⟨reads, likes, run⟩ := items_read each (depth + 1) depth
      refine ⟨array reads, .array likes, fun fuel rest enough _ => ?_⟩
      have written : print indent depth (array (item :: items)) =
          '[' :: itemsText indent (depth + 1) item items depth := by
        simp [print, itemsText]
      rw [written, List.length_cons] at enough
      obtain ⟨fuel, rfl⟩ := Nat.exists_eq_succ_of_ne_zero (by omega : fuel ≠ 0)
      rw [written, List.cons_append,
        value_bracket (items_text_occupied (each item List.mem_cons_self) _ _ _ _),
        run fuel rest (by omega)]
      rfl

/-! ### Objects -/

def entryText (indent depth : Nat) (entry : Text × Json) : Text :=
  newLine indent depth ++ quote entry.1 ++ (if indent = 0 then [':'] else [':', ' ']) ++
    print indent depth entry.2

theorem print_entries_eq (indent depth : Nat) (entries : Record Json) :
    printEntries indent depth entries = entries.map (changed (entryText indent depth)) := by
  induction entries with
  | nil => rfl
  | cons entry entries induction =>
      obtain ⟨key, value⟩ := entry
      rw [printEntries, induction]
      rfl

def entriesText (indent depth : Nat) (entries : Record Json) (closing : Nat) : Text :=
  intercalate [','] (entries.map (entryText indent depth)) ++ newLine indent closing ++ ['\x7d']

theorem print_object (indent depth : Nat) {entries : Record Json} (present : entries ≠ []) :
    print indent depth (object entries) =
      '\x7b' :: entriesText indent (depth + 1) (inKeyOrder entries) depth := by
  obtain ⟨entry, entries, rfl⟩ := List.exists_cons_of_ne_nil present
  rw [print, print_entries_eq, in_key_order_map, List.map_map]
  simp [entriesText, changed, Function.comp_def]

theorem entry_read {indent depth fuel : Nat} {entry : Text × Json} {read : Json} {rest : Text}
    (back : value? (fuel + 1) (print indent depth entry.2 ++ rest) = some (read, rest))
    (record : Record Json) :
    entries? (fuel + 2) record (entryText indent depth entry ++ rest) =
      match skipJsonBlanks rest with
      | ',' :: after => entries? (fuel + 1) (put entry.1 read record) after
      | '\x7d' :: after => some (put entry.1 read record, after)
      | _ => none := by
  obtain ⟨assigned, written, same⟩ : ∃ assigned,
      entryText indent depth entry ++ rest = newLine indent depth ++
        '"' :: (entry.1.flatMap escapeChar ++ '"' :: ':' :: assigned) ∧
      skipJsonBlanks assigned = skipJsonBlanks (print indent depth entry.2 ++ rest) := by
    unfold entryText quote
    split
    · exact ⟨print indent depth entry.2 ++ rest, by simp, rfl⟩
    · exact ⟨' ' :: (print indent depth entry.2 ++ rest), by simp, rfl⟩
  have named := string_body_quote entry.1 (':' :: assigned)
  dsimp only at named
  rw [entries?, written, skip_new_line, skip_of_not_blank (by decide), char_eq_some_iff.mpr rfl]
  simp only [Option.bind_eq_bind, Option.bind_some, named]
  rw [skip_of_not_blank (by decide), char_eq_some_iff.mpr rfl, Option.bind_some,
    value_of_skip same, back]
  rfl

theorem entries_text_one (indent depth : Nat) (entry : Text × Json) (closing : Nat) (rest : Text) :
    entriesText indent depth [entry] closing ++ rest =
      entryText indent depth entry ++ (newLine indent closing ++ '\x7d' :: rest) := by
  simp [entriesText, intercalate]

theorem entries_text_more (indent depth : Nat) (entry next : Text × Json) (entries : Record Json)
    (closing : Nat) (rest : Text) :
    entriesText indent depth (entry :: next :: entries) closing ++ rest =
      entryText indent depth entry ++
        ',' :: (entriesText indent depth (next :: entries) closing ++ rest) := by
  simp [entriesText, intercalate]

theorem print_le_entry (indent depth : Nat) (entry : Text × Json) :
    (print indent depth entry.2).length ≤ (entryText indent depth entry).length := by
  rw [entryText, List.length_append]
  exact Nat.le_add_left _ _

theorem entries_read {indent : Nat} {entry : Text × Json} {entries : Record Json}
    (distinct : (keys (entry :: entries)).Nodup)
    (each : ∀ held ∈ entry :: entries, ReadsBack indent held.2) (depth closing : Nat) :
    ∃ reads, Entrywise Alike (entry :: entries) reads ∧ ∀ fuel record rest,
      (∀ key ∈ keys (entry :: entries), key ∉ keys record) →
      (entriesText indent depth (entry :: entries) closing).length ≤ fuel →
        entries? (fuel + 1) record (entriesText indent depth (entry :: entries) closing ++ rest) =
          some (record ++ reads, rest) := by
  induction entries generalizing entry with
  | nil =>
      obtain ⟨read, like, back⟩ := each entry List.mem_cons_self depth
      refine ⟨[(entry.1, read)], .cons entry.1 like .nil, fun fuel record rest fresh enough => ?_⟩
      have size := congrArg List.length (entries_text_one indent depth entry closing [])
      simp only [List.length_append, List.length_cons, List.length_nil] at size
      have inner := print_le_entry indent depth entry
      obtain ⟨fuel, rfl⟩ := Nat.exists_eq_succ_of_ne_zero (by omega : fuel ≠ 0)
      have first := back fuel (newLine indent closing ++ '\x7d' :: rest) (by omega)
        (ends_numeral_new_line (by decide) _ _ _)
      rw [entries_text_one, entry_read first, put_fresh (fresh entry.1 List.mem_cons_self),
        skip_new_line, skip_of_not_blank (by decide)]
      rfl
  | cons next entries induction =>
      obtain ⟨new, distinct⟩ := List.nodup_cons.mp distinct
      obtain ⟨read, like, back⟩ := each entry List.mem_cons_self depth
      obtain ⟨reads, likes, run⟩ := induction distinct fun held member =>
        each held (List.mem_cons_of_mem _ member)
      refine ⟨(entry.1, read) :: reads, .cons entry.1 like likes,
        fun fuel record rest fresh enough => ?_⟩
      have size := congrArg List.length
        (entries_text_more indent depth entry next entries closing [])
      simp only [List.length_append, List.length_cons, List.length_nil] at size
      have inner := print_le_entry indent depth entry
      obtain ⟨fuel, rfl⟩ := Nat.exists_eq_succ_of_ne_zero (by omega : fuel ≠ 0)
      have first := back fuel (',' :: (entriesText indent depth (next :: entries) closing ++ rest))
        (by omega) (by rintro c ⟨⟩; decide)
      have others : ∀ key ∈ keys (next :: entries), key ∉ keys (record ++ [(entry.1, read)]) := by
        intro key member
        have different : key ≠ entry.1 := fun same => new (same ▸ member)
        simpa [keys, different] using fresh key (List.mem_cons_of_mem _ member)
      rw [entries_text_more, entry_read first, put_fresh (fresh entry.1 List.mem_cons_self),
        skip_of_not_blank (by decide)]
      simp only []
      rw [run fuel _ rest others (by omega), List.append_assoc]
      rfl

theorem entries_text_occupied (indent depth : Nat) (entry : Text × Json) (entries : Record Json)
    (closing : Nat) (rest after : Text) :
    skipJsonBlanks (entriesText indent depth (entry :: entries) closing ++ rest) ≠
      '\x7d' :: after := by
  have first (tail : Text) :
      skipJsonBlanks (entryText indent depth entry ++ tail) ≠ '\x7d' :: after := by
    intro empty
    rw [entryText, quote] at empty
    simp only [List.append_assoc, List.cons_append] at empty
    rw [skip_new_line, skip_of_not_blank (by decide)] at empty
    cases empty
  cases entries with
  | nil =>
      rw [entries_text_one]
      exact first _
  | cons next entries =>
      rw [entries_text_more]
      exact first _

theorem reads_back_object {indent : Nat} {entries : Record Json} (distinct : (keys entries).Nodup)
    (each : ∀ entry ∈ entries, ReadsBack indent entry.2) : ReadsBack indent (object entries) := by
  intro depth
  by_cases present : entries = []
  · subst present
    exact ⟨object [], .object .nil .nil, fun _ _ _ _ => rfl⟩
  · have same := in_key_order_perm entries
    have written := print_object indent depth present
    have sorted : (keys (inKeyOrder entries)).Nodup := (same.map Prod.fst).nodup_iff.mpr distinct
    have values : ∀ entry ∈ inKeyOrder entries, ReadsBack indent entry.2 :=
      fun entry member => each entry (same.mem_iff.mp member)
    cases order : inKeyOrder entries with
    | nil =>
        rw [order] at same
        exact absurd same.nil_eq.symm present
    | cons entry others =>
        rw [order] at same written sorted values
        obtain ⟨reads, likes, run⟩ := entries_read sorted values (depth + 1) depth
        refine ⟨object reads, .object same likes, fun fuel rest enough _ => ?_⟩
        rw [written, List.length_cons] at enough
        obtain ⟨fuel, rfl⟩ := Nat.exists_eq_succ_of_ne_zero (by omega : fuel ≠ 0)
        rw [written, List.cons_append, value_brace (entries_text_occupied _ _ _ _ _ _),
          run fuel [] rest (fun _ _ => List.not_mem_nil) (by omega)]
        rfl

theorem reads_back {value : Json} (plain : IsPlain value) (indent : Nat) :
    ReadsBack indent value := by
  induction plain with
  | null => exact reads_back_null indent
  | bool value => exact reads_back_bool indent value
  | number finite => exact reads_back_number indent finite
  | string value => exact reads_back_string indent value
  | array each induction => exact reads_back_array induction
  | object distinct each induction => exact reads_back_object distinct induction

theorem of_text_pretty {value : Json} (plain : IsPlain value) (indent : Nat) (blanks : Text)
    (blank : ∀ c ∈ blanks, isJsonBlank c = true) :
    ∃ read, Alike value read ∧ ofText? (pretty indent value ++ blanks) = some read := by
  obtain ⟨read, like, run⟩ := reads_back plain indent 0
  refine ⟨read, like, ?_⟩
  have ends : EndsNumeral blanks := by
    intro c first
    have space := blank c (List.mem_of_mem_head? first)
    simp only [isJsonBlank, Bool.or_eq_true, beq_iff_eq] at space
    obtain ((rfl | rfl) | rfl) | rfl := space <;> decide
  have nothing : skipJsonBlanks blanks = [] := List.dropWhile_eq_nil_iff.mpr blank
  have whole := run (pretty indent value ++ blanks).length blanks
    (by rw [List.length_append]; exact Nat.le_add_right _ _) ends
  unfold ofText?
  rw [pretty] at whole ⊢
  rw [whole, Option.bind_eq_bind, Option.bind_some]
  dsimp only
  rw [nothing]
  rfl

/-! ### Looking up what was read -/

section

variable {entries : Record Json} {stored : Json}

theorem alike_find {value : Json} (like : Alike (object entries) stored)
    (distinct : (keys entries).Nodup) (key : String)
    (found : Record.find? key.toList entries = some value) :
    ∃ read, stored.find? key = some read ∧ Alike value read := by
  cases like with
  | object same each =>
      apply each.find
      rw [find_eq_some_iff ((same.map Prod.fst).nodup_iff.mpr distinct), same.mem_iff]
      exact (find_eq_some_iff distinct).mp found

theorem alike_find_none (like : Alike (object entries) stored) (key : String)
    (absent : Record.find? key.toList entries = none) : stored.find? key = none := by
  cases like with
  | object same each =>
      rw [find_none_iff] at absent
      rw [Json.find?, find_none_iff, each.keys_eq]
      exact fun member => absent ((same.map Prod.fst).mem_iff.mp member)

/-- Texts are found as they were written. -/
theorem alike_strings {pieces : List Text} (like : Alike (array (pieces.map string)) stored) :
    stored = array (pieces.map string) := by
  cases like with
  | array each =>
      rename_i others
      congr 1
      induction pieces generalizing others with
      | nil => exact List.forall₂_nil_left_iff.mp each
      | cons piece pieces induction =>
          cases each with
          | cons first rest =>
              cases first
              rw [induction rest]
              rfl

end

end LessonBook.Json
