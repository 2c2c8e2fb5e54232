import LessonBook.Markup.Typography
import LessonBook.Proofs.Text.Remainder

/-!
Typographic signs leave nothing to a second pass. Each of them takes the place of
an abbreviation or of a straight quote, and none of them is a letter of the others,
so what was replaced once never comes up again.
-/

namespace LessonBook.Typography

open Text Recognizer

def Begins (word text : Text) : Prop :=
  (wordAnyCase word text).isSome = true

def Lacks (word text : Text) : Prop :=
  ∀ here, here <:+ text → ¬Begins word here

def Foreign (word : Text) (sign : Char) : Prop :=
  ∀ letter ∈ word, letter.toLower ≠ sign.toLower

instance (word : Text) (sign : Char) : Decidable (Foreign word sign) :=
  List.decidableBAll (fun letter : Char => letter.toLower ≠ sign.toLower) word

/-- The second text is the first one with some of its parts replaced by added signs.
A character is kept only where `Kept` holds of the text that it begins. -/
inductive SetWith (added : List Char) (Kept : Text → Prop) : Text → Text → Prop
  | nil : SetWith added Kept [] []
  | kept {text after : Text} (c : Char) (plain : Kept (c :: text))
      (below : SetWith added Kept text after) : SetWith added Kept (c :: text) (c :: after)
  | sign {text after : Text} (part : Text) {sign : Char} (member : sign ∈ added)
      (below : SetWith added Kept text after) : SetWith added Kept (part ++ text) (sign :: after)

variable {word part text after : Text} {added : List Char} {Kept : Text → Prop} {sign c : Char}

theorem begins_cons (letter : Char) :
    Begins (letter :: word) (c :: text) ↔ letter.toLower = c.toLower ∧ Begins word text := by
  by_cases same : letter.toLower = c.toLower <;> simp [Begins, wordAnyCase, same]

theorem not_begins_nil (letter : Char) : ¬Begins (letter :: word) [] := by
  simp [Begins, wordAnyCase]

theorem begins_of_lower (same : lower part = lower word) (rest : Text) :
    Begins word (part ++ rest) := by
  induction word generalizing part with
  | nil => rfl
  | cons letter word induction =>
      cases part with
      | nil => cases same
      | cons c part =>
          rw [lower, lower, List.map_cons, List.map_cons, List.cons.injEq] at same
          exact (begins_cons letter).mpr ⟨same.1.symm, induction same.2⟩

theorem Lacks.lower_ne (lacks : Lacks word text) {front back : Text}
    (split : text = front ++ part ++ back) : lower part ≠ lower word := by
  intro same
  refine lacks (part ++ back) ?_ (begins_of_lower same back)
  rw [split, List.append_assoc]
  exact List.suffix_append front _

namespace SetWith

/-- A word that begins behind the signs stood there before, if no sign is in it. -/
theorem begins (set : SetWith added Kept text after) (foreign : ∀ sign ∈ added, Foreign word sign)
    (begun : Begins word after) : Begins word text := by
  induction word generalizing text after with
  | nil => rfl
  | cons letter word induction =>
      cases set with
      | nil => exact absurd begun (not_begins_nil letter)
      | kept c plain below =>
          obtain ⟨same, more⟩ := (begins_cons letter).mp begun
          have apart : ∀ sign ∈ added, Foreign word sign := fun sign member other inside =>
            foreign sign member other (List.mem_cons_of_mem _ inside)
          have later := induction below apart more
          exact (begins_cons letter).mpr ⟨same, later⟩
      | sign part member below =>
          exact absurd ((begins_cons letter).mp begun).1
            (foreign _ member letter List.mem_cons_self)

theorem of_suffix (set : SetWith added Kept text after) {here : Text} (inside : here <:+ after) :
    ∃ origin, origin <:+ text ∧ SetWith added Kept origin here := by
  induction set with
  | nil =>
      obtain rfl := List.suffix_nil.mp inside
      exact ⟨[], List.nil_suffix, .nil⟩
  | kept c plain below induction =>
      rcases List.suffix_cons_iff.mp inside with rfl | inside
      · exact ⟨_, List.suffix_refl _, .kept c plain below⟩
      · obtain ⟨origin, within, set⟩ := induction inside
        exact ⟨origin, within.trans (List.suffix_cons c _), set⟩
  | sign part member below induction =>
      rcases List.suffix_cons_iff.mp inside with rfl | inside
      · exact ⟨_, List.suffix_refl _, .sign part member below⟩
      · obtain ⟨origin, within, set⟩ := induction inside
        exact ⟨origin, within.trans (List.suffix_append part _), set⟩

theorem lacks (set : SetWith added Kept text after) (foreign : ∀ sign ∈ added, Foreign word sign)
    (lacks : Lacks word text) : Lacks word after := by
  intro here inside begun
  obtain ⟨origin, within, set⟩ := set.of_suffix inside
  exact lacks origin within (set.begins foreign begun)

/-- A word is gone where every character that is kept begins no such word. -/
theorem lacks_of_kept {letter : Char} (set : SetWith added Kept text after)
    (foreign : ∀ sign ∈ added, Foreign (letter :: word) sign)
    (unkept : ∀ here, Kept here → ¬Begins (letter :: word) here) :
    Lacks (letter :: word) after := by
  intro here inside begun
  obtain ⟨origin, -, set⟩ := set.of_suffix inside
  cases set with
  | nil => exact not_begins_nil letter begun
  | kept c plain below => exact unkept _ plain ((SetWith.kept c plain below).begins foreign begun)
  | sign part member below =>
      exact foreign _ member letter List.mem_cons_self ((begins_cons letter).mp begun).1

end SetWith

/-! ### Abbreviations -/

theorem set_with_replace_word (wanted : Text) (sign : Char) (skipped : Nat) (text : Text) :
    SetWith [sign] (fun here => ¬Begins wanted here) (text.drop skipped)
      (replaceWord wanted sign skipped text) := by
  induction text generalizing skipped with
  | nil =>
      rw [List.drop_nil]
      exact .nil
  | cons c rest induction =>
      cases skipped with
      | succ count =>
          rw [List.drop_succ_cons, replaceWord]
          exact induction count
      | zero =>
          rw [List.drop_zero, replaceWord]
          split
          · have split : (c :: rest.take (wanted.length - 1)) ++ rest.drop (wanted.length - 1) =
                c :: rest := by
              rw [List.cons_append, List.take_append_drop]
            rw [← split]
            exact .sign _ List.mem_cons_self (induction _)
          · rename_i absent
            exact .kept c absent (induction 0)

theorem replace_word_of_lacks {wanted : Text} (lacks : Lacks wanted text) (sign : Char) :
    replaceWord wanted sign 0 text = text := by
  induction text with
  | nil => rfl
  | cons c rest induction =>
      have absent : ¬(wordAnyCase wanted (c :: rest)).isSome = true := lacks _ (List.suffix_refl _)
      rw [replaceWord, if_neg absent,
        induction fun here inside => lacks here (inside.trans (List.suffix_cons c rest))]

theorem lacks_replaced {letter : Char} (foreign : Foreign (letter :: word) sign) (text : Text) :
    Lacks (letter :: word) (replaceWord (letter :: word) sign 0 text) :=
  (set_with_replace_word (letter :: word) sign 0 text).lacks_of_kept
    (by simpa using foreign) (fun _ plain => plain)

theorem Lacks.replaced (lacks : Lacks word text) (foreign : Foreign word sign) (wanted : Text) :
    Lacks word (replaceWord wanted sign 0 text) :=
  (set_with_replace_word wanted sign 0 text).lacks (by simpa using foreign) lacks

theorem lacks_fold {entries : List (Text × Char)}
    (foreign : ∀ entry ∈ entries, ∀ other ∈ entries, Foreign other.1 entry.2)
    (present : ∀ entry ∈ entries, entry.1 ≠ []) (text : Text) :
    ∀ entry ∈ entries, Lacks entry.1
      (entries.foldl (fun current entry => replaceWord entry.1 entry.2 0 current) text) := by
  -- What is gone stays gone: the entries that are still to come are `rest`.
  have kept (rest : List (Text × Char)) (among : rest ⊆ entries) {word : Text}
      (apart : ∀ entry ∈ entries, Foreign word entry.2) (text : Text) (gone : Lacks word text) :
      Lacks word
        (rest.foldl (fun current entry => replaceWord entry.1 entry.2 0 current) text) := by
    induction rest generalizing text with
    | nil => exact gone
    | cons first rest induction =>
        exact induction (fun _ member => among (List.mem_cons_of_mem _ member)) _
          (gone.replaced (apart first (among List.mem_cons_self)) first.1)
  intro entry member
  obtain ⟨front, back, split⟩ := List.append_of_mem member
  have apart : ∀ other ∈ entries, Foreign entry.1 other.2 :=
    fun other inside => foreign other inside entry member
  rw [split, List.foldl_append, List.foldl_cons]
  refine kept back (fun other inside => split ▸ by simp [inside]) apart _ ?_
  cases written : entry.1 with
  | nil => exact absurd written (present entry member)
  | cons letter word => exact lacks_replaced (written ▸ apart entry member) _

theorem signs_foreign : ∀ entry ∈ signs, ∀ other ∈ signs, Foreign other.1 entry.2 := by
  decide

theorem lacks_replace_signs (text : Text) : ∀ entry ∈ signs, Lacks entry.1 (replaceSigns text) :=
  lacks_fold signs_foreign (by decide) text

theorem replace_signs_of_lacks (lacks : ∀ entry ∈ signs, Lacks entry.1 text) :
    replaceSigns text = text := by
  rw [replaceSigns]
  generalize signs = entries at lacks
  induction entries with
  | nil => rfl
  | cons first rest induction =>
      rw [List.foldl_cons, replace_word_of_lacks (lacks first List.mem_cons_self)]
      exact induction fun entry member => lacks entry (List.mem_cons_of_mem _ member)

/-! ### Quotes -/

/-- A quote at this place opens: it is the first character, or it stands behind a
blank or an opening bracket. -/
def OpensAt (text : Text) (index : Nat) : Prop :=
  index = 0 ∨ ∃ c, text[index - 1]? = some c ∧
    (isBlank c = true ∨ c = '(' ∨ c = '[' ∨ c = '\x7b')

/-- Each straight quote of the first text is a curled one in the second, which opens
or closes by what stands in front of the straight one. -/
structure Curls (straight opening closing : Char) (plain curled : Text) : Prop where
  opens : ∀ index, plain[index]? = some straight → OpensAt plain index →
    curled[index]? = some opening
  closes : ∀ index, plain[index]? = some straight → ¬OpensAt plain index →
    curled[index]? = some closing

section Curl

variable {straight opening closing : Char} {opens : Bool}

theorem set_with_curl (opens : Bool) (text : Text) :
    SetWith [opening, closing] (fun here => here.head? ≠ some straight) text
      (curl straight opening closing opens text) := by
  induction text generalizing opens with
  | nil => exact .nil
  | cons c rest induction =>
      rw [curl]
      split
      · refine .sign [c] ?_ (induction _)
        split <;> simp
      · rename_i other
        exact .kept c (by simpa using other) (induction _)

theorem curl_of_absent (absent : straight ∉ text) :
    curl straight opening closing opens text = text := by
  induction text generalizing opens with
  | nil => rfl
  | cons c rest induction =>
      rw [List.mem_cons, not_or] at absent
      rw [curl, if_neg (by simpa using Ne.symm absent.1), induction absent.2]

theorem length_curl : (curl straight opening closing opens text).length = text.length := by
  induction text generalizing opens with
  | nil => rfl
  | cons c rest induction => rw [curl, List.length_cons, induction, List.length_cons]

theorem mem_curl (member : c ∈ curl straight opening closing opens text) :
    (c ∈ text ∧ c ≠ straight) ∨ c = opening ∨ c = closing := by
  induction text generalizing opens with
  | nil => cases member
  | cons d rest induction =>
      rw [curl, List.mem_cons] at member
      rcases member with rfl | later
      · split
        · split <;> simp
        · rename_i other
          exact .inl ⟨List.mem_cons_self, by simpa using other⟩
      · rcases induction later with ⟨inside, other⟩ | sign
        · exact .inl ⟨List.mem_cons_of_mem d inside, other⟩
        · exact .inr sign

theorem get_curl (index : Nat) :
    (curl straight opening closing opens text)[index]? = text[index]?.map fun c =>
      if c = straight then
        if (if index = 0 then opens else (text[index - 1]?).any opensQuote) then opening
        else closing
      else c := by
  induction text generalizing opens index with
  | nil => rfl
  | cons c rest induction =>
      cases index with
      | zero => simp [curl]
      | succ index =>
          rw [curl, List.getElem?_cons_succ, List.getElem?_cons_succ, induction,
            Nat.add_sub_cancel, if_neg (Nat.succ_ne_zero index)]
          cases index with
          | zero => rfl
          | succ index => rw [if_neg (Nat.succ_ne_zero index)]; rfl

theorem get_curl_of_other {index : Nat} (here : text[index]? = some c) (other : c ≠ straight) :
    (curl straight opening closing opens text)[index]? = some c := by
  rw [get_curl, here, Option.map_some, if_neg other]

theorem opens_at_iff {index : Nat} :
    OpensAt text index ↔ index = 0 ∨ (text[index - 1]?).any opensQuote = true := by
  simp [OpensAt, opensQuote, Option.any_eq_true, or_assoc]

/-- No quote opens the one behind it, so curling leaves the openings where they are. -/
theorem opens_at_curl {index : Nat} (straightNever : opensQuote straight = false)
    (openingNever : opensQuote opening = false) (closingNever : opensQuote closing = false) :
    OpensAt (curl straight opening closing opens text) index ↔ OpensAt text index := by
  rw [opens_at_iff, opens_at_iff, get_curl]
  refine or_congr_right ?_
  cases text[index - 1]? with
  | none => rfl
  | some c =>
      rw [Option.map_some, Option.any_some, Option.any_some]
      by_cases same : c = straight
      · have never (first : Bool) : opensQuote (if first then opening else closing) = false := by
          cases first
          · exact closingNever
          · exact openingNever
        rw [if_pos same, same, straightNever, never]
      · rw [if_neg same]

theorem curls_curl (text : Text) :
    Curls straight opening closing text (curl straight opening closing true text) := by
  have decided (index : Nat) :
      (if index = 0 then true else (text[index - 1]?).any opensQuote) = true ↔
        OpensAt text index := by
    rw [opens_at_iff]
    split <;> simp [*]
  constructor
  · intro index here opens
    rw [get_curl, here, Option.map_some, if_pos rfl, if_pos ((decided index).mpr opens)]
  · intro index here closes
    rw [get_curl, here, Option.map_some, if_pos rfl, if_neg (mt (decided index).mp closes)]

end Curl

theorem length_curl_quotes (text : Text) : (curlQuotes text).length = text.length := by
  rw [curlQuotes, length_curl, length_curl]

theorem double_curls (text : Text) : Curls '"' '“' '”' text (curlQuotes text) where
  opens index here opens := get_curl_of_other ((curls_curl text).opens index here opens) (by decide)
  closes index here closes :=
    get_curl_of_other ((curls_curl text).closes index here closes) (by decide)

theorem single_curls (text : Text) : Curls '\'' '‘' '’' text (curlQuotes text) where
  opens index here opens :=
    (curls_curl _).opens index (get_curl_of_other here (by decide))
      ((opens_at_curl (by decide) (by decide) (by decide)).mpr opens)
  closes index here closes :=
    (curls_curl _).closes index (get_curl_of_other here (by decide))
      (mt (opens_at_curl (by decide) (by decide) (by decide)).mp closes)

theorem get_curl_quotes_of_other {index : Nat} (here : text[index]? = some c) (double : c ≠ '"')
    (single : c ≠ '\'') : (curlQuotes text)[index]? = some c :=
  get_curl_of_other (get_curl_of_other here double) single

theorem no_straight_quote (text : Text) : '"' ∉ curlQuotes text ∧ '\'' ∉ curlQuotes text := by
  constructor
  · intro member
    rcases mem_curl member with ⟨inside, -⟩ | sign | sign
    · rcases mem_curl inside with ⟨-, other⟩ | sign | sign
      · exact other rfl
      · exact absurd sign (by decide)
      · exact absurd sign (by decide)
    · exact absurd sign (by decide)
    · exact absurd sign (by decide)
  · intro member
    rcases mem_curl member with ⟨-, other⟩ | sign | sign
    · exact other rfl
    · exact absurd sign (by decide)
    · exact absurd sign (by decide)

theorem curl_quotes_of_absent (double : '"' ∉ text) (single : '\'' ∉ text) :
    curlQuotes text = text := by
  rw [curlQuotes, curl_of_absent double, curl_of_absent single]

theorem Lacks.curl_quotes (lacks : Lacks word text)
    (foreign : ∀ sign ∈ ['“', '”', '‘', '’'], Foreign word sign) : Lacks word (curlQuotes text) :=
  have double : ∀ sign ∈ ['“', '”'], Foreign word sign :=
    fun sign member => foreign sign (List.mem_append_left ['‘', '’'] member)
  have single : ∀ sign ∈ ['‘', '’'], Foreign word sign :=
    fun sign member => foreign sign (List.mem_append_right ['“', '”'] member)
  (set_with_curl true _).lacks single ((set_with_curl true text).lacks double lacks)

theorem quotes_foreign : ∀ sign ∈ ['“', '”', '‘', '’'], ∀ entry ∈ signs, Foreign entry.1 sign := by
  intro sign curled
  simp only [List.mem_cons, List.not_mem_nil, or_false] at curled
  rcases curled with rfl | rfl | rfl | rfl <;> decide

/-! ### Both -/

def replaced (enabled : List Extension) (text : Text) : Text :=
  if enabled.contains .replacements then replaceSigns text else text

theorem typeset_eq (enabled : List Extension) (text : Text) :
    typeset enabled text =
      if enabled.contains .smartquotes then curlQuotes (replaced enabled text)
      else replaced enabled text := rfl

theorem lacks_typeset {enabled : List Extension} (replaces : .replacements ∈ enabled)
    (text : Text) : ∀ entry ∈ signs, Lacks entry.1 (typeset enabled text) := by
  intro entry member
  have gone : Lacks entry.1 (replaced enabled text) := by
    rw [replaced, if_pos (by simpa using replaces)]
    exact lacks_replace_signs text entry member
  rw [typeset_eq]
  split
  · exact gone.curl_quotes fun sign curled => quotes_foreign sign curled entry member
  · exact gone

theorem typeset_twice (enabled : List Extension) (text : Text) :
    typeset enabled (typeset enabled text) = typeset enabled text := by
  have settled : replaced enabled (typeset enabled text) = typeset enabled text := by
    rw [replaced]
    split
    · rename_i replaces
      exact replace_signs_of_lacks (lacks_typeset (by simpa using replaces) text)
    · rfl
  rw [typeset_eq enabled (typeset enabled text), settled]
  split
  · rename_i curls
    obtain ⟨double, single⟩ := no_straight_quote (replaced enabled text)
    rw [typeset_eq, if_pos curls]
    exact curl_quotes_of_absent double single
  · rfl

/-- Setting a text again changes nothing. No abbreviation is left, and no straight
quote: each one opens or closes by what stands in front of it. -/
theorem typeset_settles (enabled : List Extension) (text : Text) :
    let plain := replaced enabled text
    let result := typeset enabled text
    typeset enabled result = result ∧
      (.replacements ∈ enabled → ∀ front part back, result = front ++ part ++ back →
        lower part ∉ ["(c)".toList, "(tm)".toList, "(r)".toList, "+-".toList, "...".toList,
          "--".toList]) ∧
      (.smartquotes ∈ enabled →
        '"' ∉ result ∧ '\'' ∉ result ∧ result.length = plain.length ∧
          Curls '"' '“' '”' plain result ∧ Curls '\'' '‘' '’' plain result ∧
          ∀ (index : Nat) (c : Char), plain[index]? = some c → c ≠ '"' → c ≠ '\'' →
            result[index]? = some c) := by
  intro plain result
  refine ⟨typeset_twice enabled text, ?_, ?_⟩
  · intro replaces front part back split member
    have absent (word : Text) (lowered : lower word = word) (sign : Char)
        (listed : (word, sign) ∈ signs) : lower part ≠ word := by
      rw [← lowered]
      exact (lacks_typeset replaces text _ listed).lower_ne split
    simp only [List.mem_cons, List.not_mem_nil, or_false] at member
    rcases member with same | same | same | same | same | same
    · exact absent _ (by decide) '©' (by decide) same
    · exact absent _ (by decide) '™' (by decide) same
    · exact absent _ (by decide) '®' (by decide) same
    · exact absent _ (by decide) '±' (by decide) same
    · exact absent _ (by decide) '…' (by decide) same
    · exact absent _ (by decide) '–' (by decide) same
  · intro curls
    have written : result = curlQuotes plain := by
      change typeset enabled text = _
      rw [typeset_eq, if_pos (by simpa using curls)]
    obtain ⟨double, single⟩ := no_straight_quote plain
    rw [written]
    exact ⟨double, single, length_curl_quotes plain, double_curls plain, single_curls plain,
      fun index c here => get_curl_quotes_of_other here⟩

/-- Runs of dashes and dots, a plus sign in front of dashes, and quotes behind quotes. -/
theorem typeset_settles_crowded :
    let text := "(C) +------ \"'a'\"\"..... (\"(tM)\"".toList
    typeset Extension.all text = "© ±—– “’a’””….. (“™”".toList ∧
      typeset Extension.all (typeset Extension.all text) = typeset Extension.all text := by
  intro text
  exact ⟨by decide +kernel, (typeset_settles Extension.all text).1⟩

end LessonBook.Typography
