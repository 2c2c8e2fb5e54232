import Mathlib.Data.List.Nodup
import LessonBook.Notebook.ChunkOption
import LessonBook.Proofs.Json.KeyOrder
import LessonBook.Proofs.Text.Cut

/-!
Chunk options as they are written: keys with truth values or with texts in quotes,
and commas between the options. They are read back as long as no text holds a comma,
which cuts inside of quotes as well, and no text goes over the end of a line.
-/

namespace LessonBook.ChunkOption

open Text

inductive Setting where
  | flag (value : Bool)
  | quoted (text : Text)
  deriving DecidableEq, Repr

namespace Setting

def value : Setting → Json
  | flag value => .bool value
  | quoted text => .string text

def written : Setting → Text
  | flag true => "TRUE".toList
  | flag false => "FALSE".toList
  | quoted text => '"' :: (text ++ ['"'])

def IsPlain : Setting → Prop
  | flag _ => True
  | quoted text => ',' ∉ text ∧ ∀ c ∈ text, isTerminator c = false

end Setting

structure IsKey (key : Text) : Prop where
  present : key ≠ []
  noComma : ',' ∉ key
  noEquals : '=' ∉ key
  trimmed : trim key = key
  notReserved : key ≠ Record.reservedKey

def writtenOption (option : Text × Setting) : Text :=
  option.1 ++ '=' :: option.2.written

def render (options : Record Setting) : Text :=
  intercalate [',', ' '] (options.map writtenOption)

def values (options : Record Setting) : Metadata :=
  options.map fun option => (option.1, option.2.value)

/-! ### One value -/

theorem written_edges (setting : Setting) :
    (∃ c, setting.written.head? = some c ∧ isBlank c = false) ∧
      ∃ c, setting.written.getLast? = some c ∧ isBlank c = false := by
  match setting with
  | .flag true => exact ⟨⟨'T', rfl, rfl⟩, ⟨'E', rfl, rfl⟩⟩
  | .flag false => exact ⟨⟨'F', rfl, rfl⟩, ⟨'E', rfl, rfl⟩⟩
  | .quoted text =>
      refine ⟨⟨'"', rfl, rfl⟩, ⟨'"', ?_, rfl⟩⟩
      rw [Setting.written, ← List.cons_append, List.getLast?_concat]

theorem trim_written (setting : Setting) : trim setting.written = setting.written := by
  obtain ⟨⟨first, head, firstFilled⟩, last, tail, lastFilled⟩ := written_edges setting
  apply trim_of_edges
  · rw [head]
    simpa using firstFilled
  · rw [tail]
    simpa using lastFilled

theorem unquote_quoted (text : Text) : unquote? ('"' :: (text ++ ['"'])) =
    if text.any isTerminator then none else some text := by
  rw [unquote?, List.getLast?_concat, List.dropLast_concat]
  cases text.any isTerminator <;> rfl

theorem value_of_quoted (text : Text) : valueOf (Setting.quoted text).written =
    if text.any isTerminator then .string (Setting.quoted text).written else .string text := by
  have noNumeral : isNumeral ('"' :: (text ++ ['"'])) = false := rfl
  rw [Setting.written, valueOf, if_neg (by simp), if_neg (by simp), if_neg (by simp [noNumeral]),
    unquote_quoted]
  cases text.any isTerminator <;> rfl

theorem is_plain_of_unbroken {text : Text} (noComma : ',' ∉ text)
    (unbroken : text.any isTerminator = false) : (Setting.quoted text).IsPlain :=
  ⟨noComma, by simpa using unbroken⟩

theorem value_of_written_iff {setting : Setting} (noComma : ',' ∉ setting.written) :
    valueOf setting.written = setting.value ↔ setting.IsPlain := by
  match setting with
  | .flag true => exact iff_of_true rfl trivial
  | .flag false => exact iff_of_true rfl trivial
  | .quoted text =>
      have inside : ',' ∉ text := fun member => noComma (by simp [Setting.written, member])
      have longer : (Setting.quoted text).written ≠ text := fun same => by
        have size := congrArg List.length same
        simp only [Setting.written, List.length_cons, List.length_append] at size
        omega
      rw [value_of_quoted, Setting.value]
      cases broken : text.any isTerminator with
      | true =>
          refine iff_of_false (by simpa using longer) fun plain => ?_
          obtain ⟨c, member, terminator⟩ := List.any_eq_true.mp broken
          rw [plain.2 c member] at terminator
          cases terminator
      | false => exact iff_of_true rfl (is_plain_of_unbroken inside broken)

/-! ### One option -/

variable {option : Text × Setting} {options : Record Setting}

theorem trim_written_option (isKey : IsKey option.1) :
    trim (writtenOption option) = writtenOption option := by
  obtain ⟨-, last, tail, filled⟩ := written_edges option.2
  apply trim_of_edges
  · intro c first
    rw [writtenOption, List.head?_append_of_ne_nil _ isKey.present, ← isKey.trimmed] at first
    exact trim_head first
  · have behind : writtenOption option = (option.1 ++ ['=']) ++ option.2.written := by
      simp [writtenOption]
    rw [behind, List.getLast?_append, tail]
    simpa using filled

theorem add_written (isKey : IsKey option.1) {read : Metadata} (fresh : option.1 ∉ Record.keys read)
    (isFirst : Bool) : add isFirst (writtenOption option) read =
      read ++ [(option.1, valueOf option.2.written)] := by
  have equals : (writtenOption option).contains '=' = true := by simp [writtenOption]
  have inKey : ∀ c ∈ option.1, (c != '=') = true := by
    intro c member
    rw [bne_iff_ne]
    rintro rfl
    exact isKey.noEquals member
  have stop : ('=' != '=') = false := by decide
  have key := take_while_in_front inKey stop option.2.written
  have value := drop_while_in_front inKey stop option.2.written
  have present : option.1.isEmpty = false := by simpa using isKey.present
  rw [add, if_pos equals, writtenOption, key, value, List.drop_one, List.tail_cons, isKey.trimmed,
    trim_written]
  simp only [present, Bool.false_eq_true, if_false]
  rw [Record.assign, if_neg isKey.notReserved, Record.put_fresh fresh]

/-! ### All options -/

theorem add_all_written (keys : ∀ option ∈ options, IsKey option.1) {read : Metadata}
    (distinct : (Record.keys read ++ Record.keys options).Nodup) :
    addAll read (options.map writtenOption) =
      read ++ options.map fun option => (option.1, valueOf option.2.written) := by
  induction options generalizing read with
  | nil => exact (List.append_nil read).symm
  | cons option options induction =>
      obtain ⟨isKey, others⟩ := List.forall_mem_cons.mp keys
      have moved : Record.keys (read ++ [(option.1, valueOf option.2.written)]) ++
          Record.keys options = Record.keys read ++ Record.keys (option :: options) := by
        simp [Record.keys]
      have fresh : option.1 ∉ Record.keys read := fun member =>
        (List.nodup_append.mp distinct).2.2 _ member _ List.mem_cons_self rfl
      rw [List.map_cons, addAll, add_written isKey fresh, induction others (by rwa [moved]),
        List.append_assoc]
      rfl

theorem split_render (noComma : ∀ other ∈ option :: options, ',' ∉ writtenOption other) :
    splitAt (· == ',') (render (option :: options)) =
      writtenOption option :: options.map fun other => ' ' :: writtenOption other := by
  have whole {other : Text × Setting} (inside : ',' ∉ writtenOption other) :
      ∀ c ∈ writtenOption other, (c == ',') = false := by
    intro c member
    rw [beq_eq_false_iff_ne]
    rintro rfl
    exact inside member
  induction options generalizing option with
  | nil => exact split_at_whole (whole (noComma option List.mem_cons_self))
  | cons next options induction =>
      obtain ⟨here, below⟩ := List.forall_mem_cons.mp noComma
      have rest : render (option :: next :: options) =
          writtenOption option ++ ',' :: ' ' :: render (next :: options) := by
        simp [render, intercalate]
      obtain ⟨first, others, pieces, spaced⟩ :=
        @split_at_kept (· == ',') ' ' (by decide) (render (next :: options))
      rw [induction below] at pieces
      cases pieces
      rw [rest, split_at_in_front (whole here) (by decide), spaced]
      rfl

theorem parts_render (keys : ∀ option ∈ options, IsKey option.1)
    (noComma : ∀ option ∈ options, ',' ∉ writtenOption option) :
    ((splitAt (· == ',') (render options)).map trim).filter (!·.isEmpty) =
      options.map writtenOption := by
  have occupied : ∀ part ∈ options.map writtenOption, (!part.isEmpty) = true := by
    intro part member
    obtain ⟨option, -, rfl⟩ := List.mem_map.mp member
    simp [writtenOption]
  cases options with
  | nil => rfl
  | cons option options =>
      obtain ⟨isKey, others⟩ := List.forall_mem_cons.mp keys
      have spaced : (options.map fun other => ' ' :: writtenOption other).map trim =
          options.map writtenOption := by
        rw [List.map_map]
        refine List.map_congr_left fun other member => ?_
        rw [Function.comp_apply, trim_blank_cons (by decide),
          trim_written_option (others other member)]
      rw [split_render noComma, List.map_cons, trim_written_option isKey, spaced, ← List.map_cons,
        List.filter_eq_self.mpr occupied]

theorem parse_render (distinct : (Record.keys options).Nodup)
    (keys : ∀ option ∈ options, IsKey option.1)
    (noComma : ∀ option ∈ options, ',' ∉ writtenOption option) :
    parse (render options) = options.map fun option => (option.1, valueOf option.2.written) := by
  rw [parse, parts_render keys noComma]
  cases options with
  | nil => rfl
  | cons option options =>
      obtain ⟨isKey, others⟩ := List.forall_mem_cons.mp keys
      have fresh : option.1 ∉ Record.keys ([] : Metadata) := List.not_mem_nil
      have first := add_written isKey fresh true
      rw [List.nil_append] at first
      exact (congrArg (addAll · _) first).trans (add_all_written others distinct)

/-! ### No text with a comma is read -/

def IsUncut (read : Metadata) : Prop :=
  ∀ key text, Record.find? key read = some (.string text) → ',' ∉ text

theorem value_of_subset {text inner : Text} (read : valueOf text = .string inner) :
    inner ⊆ text := by
  unfold valueOf at read
  split at read
  · cases read
  · split at read
    · cases read
    · split at read
      · cases read
      · split at read
        · rename_i unquoted found
          cases read
          unfold unquote? at found
          split at found
          · split at found
            · cases found
              exact fun c member => List.mem_cons_of_mem _ ((List.dropLast_prefix _).subset member)
            · cases found
          · cases found
        · cases read
          exact List.Subset.refl _

theorem IsUncut.put {read : Metadata} (uncut : IsUncut read) {value : Json}
    (kept : ∀ text, value = .string text → ',' ∉ text) (key : Text) :
    IsUncut (Record.put key value read) := by
  intro other text found
  by_cases same : other = key
  · rw [same, Record.find_put_same, Option.some.injEq] at found
    exact kept text found
  · rw [Record.find_put_other same] at found
    exact uncut other text found

theorem IsUncut.add {read : Metadata} (uncut : IsUncut read) {part : Text} (whole : ',' ∉ part)
    (isFirst : Bool) : IsUncut (add isFirst part read) := by
  have inside {value : Text} (within : value ⊆ part) :
      ∀ text, valueOf value = .string text → ',' ∉ text :=
    fun text found member => whole (within (value_of_subset found member))
  unfold ChunkOption.add
  split
  · dsimp only
    split
    · exact uncut
    · unfold Record.assign
      split
      · exact uncut
      · refine uncut.put (inside fun c member => ?_) _
        exact (List.dropWhile_suffix _).subset
          ((List.drop_suffix 1 _).subset (trim_subset _ member))
  · split
    · refine uncut.put ?_ _
      rintro text same
      cases same
      exact whole
    · exact uncut

theorem IsUncut.add_all {read : Metadata} (uncut : IsUncut read) {parts : List Text}
    (whole : ∀ part ∈ parts, ',' ∉ part) : IsUncut (addAll read parts) := by
  induction parts generalizing read with
  | nil => exact uncut
  | cons part parts induction =>
      obtain ⟨here, below⟩ := List.forall_mem_cons.mp whole
      exact induction (uncut.add here false) below

theorem uncut_parse (text : Text) : IsUncut (parse text) := by
  have whole : ∀ part ∈ ((splitAt (· == ',') text).map trim).filter (!·.isEmpty), ',' ∉ part := by
    intro part member comma
    obtain ⟨piece, inside, rfl⟩ := List.mem_map.mp (List.mem_of_mem_filter member)
    exact absurd (not_cut_of_mem_split_at inside ',' (trim_subset _ comma)) (by decide)
  have nothing : IsUncut [] := fun key text found => by cases found
  unfold parse
  split
  · exact nothing
  · rename_i first parts cut
    rw [cut] at whole
    obtain ⟨here, below⟩ := List.forall_mem_cons.mp whole
    exact (nothing.add here true).add_all below

/-! ### Options that survive -/

theorem no_comma_in_option (isKey : IsKey option.1)
    (whole : ∀ text, option.2 = .quoted text → ',' ∉ text) : ',' ∉ writtenOption option := by
  have value : ',' ∉ option.2.written := by
    cases setting : option.2 with
    | flag value => cases value <;> decide
    | quoted text => simp [Setting.written, whole text setting]
  simp [writtenOption, isKey.noComma, value]

theorem no_comma_in_written (noComma : ',' ∉ writtenOption option) : ',' ∉ option.2.written :=
  fun comma => noComma (by simp [writtenOption, comma])

theorem find_values (distinct : (Record.keys options).Nodup) (member : option ∈ options) :
    Record.find? option.1 (values options) = some option.2.value := by
  rw [Record.find_eq_some_iff]
  · exact List.mem_map_of_mem member
  · rwa [show Record.keys (values options) = Record.keys options by simp [Record.keys, values]]

theorem parse_plain (distinct : (Record.keys options).Nodup)
    (keys : ∀ option ∈ options, IsKey option.1)
    (plain : ∀ option ∈ options, option.2.IsPlain) : parse (render options) = values options := by
  have noComma : ∀ option ∈ options, ',' ∉ writtenOption option := by
    intro option member
    refine no_comma_in_option (keys option member) fun text same => ?_
    have kept := plain option member
    rw [same] at kept
    exact kept.1
  rw [parse_render distinct keys noComma]
  refine List.map_congr_left fun option member => ?_
  have inside := no_comma_in_written (noComma option member)
  rw [(value_of_written_iff inside).mpr (plain option member)]

theorem plain_of_read (distinct : (Record.keys options).Nodup)
    (keys : ∀ option ∈ options, IsKey option.1)
    (read : ∀ option ∈ options,
      Record.find? option.1 (parse (render options)) = some option.2.value) :
    ∀ option ∈ options, option.2.IsPlain := by
  have noComma : ∀ option ∈ options, ',' ∉ writtenOption option := by
    intro option member
    refine no_comma_in_option (keys option member) fun text same => ?_
    have found := read option member
    rw [same] at found
    exact uncut_parse _ _ text found
  intro option member
  have inside := no_comma_in_written (noComma option member)
  have found := read option member
  rw [parse_render distinct keys noComma, Record.find_eq_some_iff, List.mem_map] at found
  · obtain ⟨other, present, same⟩ := found
    rw [Prod.mk.injEq] at same
    have whole : other = option := List.inj_on_of_nodup_map distinct present member same.1
    rw [whole] at same
    exact (value_of_written_iff inside).mp same.2
  · rwa [Record.keys, List.map_map]

/-- Options are read back, each key with its value, exactly when no text among them
holds a comma or a line terminator; and then nothing else is read. -/
theorem written_options_survive_iff (distinct : (Record.keys options).Nodup)
    (keys : ∀ option ∈ options, IsKey option.1) :
    ((∀ option ∈ options,
        Record.find? option.1 (parse (render options)) = some option.2.value) ↔
      ∀ option ∈ options, option.2.IsPlain) ∧
      ((∀ option ∈ options, option.2.IsPlain) → parse (render options) = values options) := by
  refine ⟨⟨plain_of_read distinct keys, fun plain option member => ?_⟩, parse_plain distinct keys⟩
  rw [parse_plain distinct keys plain]
  exact find_values distinct member

/-- Texts that look like other options, values and ends of quotes. -/
theorem written_options_survive_crowded :
    let options : Record Setting := [("10".toList, .quoted "x=TRUE".toList),
      ("fig cap".toList, .quoted " \x7b'\x7d = \"-1\" ".toList), ("echo".toList, .flag false),
      ("T".toList, .quoted [])]
    (Record.keys options).Nodup ∧ (∀ option ∈ options, IsKey option.1) ∧
      (∀ option ∈ options, option.2.IsPlain) ∧ parse (render options) = values options := by
  intro options
  have distinct : (Record.keys options).Nodup := by decide
  have keys : ∀ option ∈ options, IsKey option.1 := by
    simp only [options, List.forall_mem_cons]
    exact ⟨⟨by decide, by decide, by decide, by decide, by decide⟩,
      ⟨by decide, by decide, by decide, by decide, by decide⟩,
      ⟨by decide, by decide, by decide, by decide, by decide⟩,
      ⟨by decide, by decide, by decide, by decide, by decide⟩, nofun⟩
  have plain : ∀ option ∈ options, option.2.IsPlain := by
    simp only [options, List.forall_mem_cons]
    exact ⟨is_plain_of_unbroken (by decide) rfl, is_plain_of_unbroken (by decide) rfl, trivial,
      is_plain_of_unbroken (by decide) rfl, nofun⟩
  exact ⟨distinct, keys, plain, (written_options_survive_iff distinct keys).2 plain⟩

/-- A comma inside of quotes cuts the text, and what stands behind it is lost. -/
theorem quoted_comma_cuts :
    let options : Record Setting := [("title".toList, .quoted "a, b".toList)]
    IsKey "title".toList ∧ parse (render options) = [("title".toList, .string "\"a".toList)] ∧
      parse (render options) ≠ values options := by
  intro options
  have cut : parse (render options) = [("title".toList, .string "\"a".toList)] := rfl
  refine ⟨⟨by decide, by decide, by decide, by decide, by decide⟩, cut, ?_⟩
  rw [cut]
  simp [options, values, Setting.value]

end LessonBook.ChunkOption
