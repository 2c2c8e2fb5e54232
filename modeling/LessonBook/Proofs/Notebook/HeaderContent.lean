import LessonBook.Notebook.Reader
import LessonBook.Proofs.Json.KeyOrder
import LessonBook.Proofs.Yaml.Content

/-!
What a notebook keeps of the header of its document, whatever library reads it: the
entries of the metadata mapping, and all other entries of the header. Headers that
differ there give different notebooks. A header that is no mapping, and metadata that
are none, have no entries and are not kept.
-/

namespace LessonBook

open Text Yaml

structure Cell.Alike (cell other : Cell) : Prop where
  kind : cell.kind = other.kind
  source : cell.source = other.source

/-- Notebooks that nothing tells apart but the order of keys. -/
structure Notebook.Alike (yaml : Library) (notebook other : Notebook yaml.Value) : Prop where
  metadata : yaml.SameEntries notebook.metadata other.metadata
  cells : List.Forall₂ Cell.Alike notebook.cells other.cells

namespace Header

section Content

variable (yaml : Library)

def HasHeader (text : Text) (value : yaml.Value) (body : List Text) : Prop :=
  ∃ header, split? (Notebook.documentLines text) = some (header, body) ∧
    yaml.parse (joinLines header) = .ok value

structure WritesApart (entries others : Record yaml.Value) : Prop where
  first : ∃ text, yaml.stringify entries = .ok text
  second : ∃ text, yaml.stringify others = .ok text
  apart : ¬yaml.SameEntries entries others → yaml.stringify entries ≠ yaml.stringify others

/-- Whether the value is a mapping, and its metadata, if there are any, are a mapping
with some entries, the reserved key not among them. -/
def keepsMetadata (value : yaml.Value) : Bool :=
  match yaml.content value with
  | .record entries =>
      match (Record.find? metadataKey entries).map yaml.content with
      | none => true
      | some (.record fields) =>
          !fields.isEmpty && (Record.find? Record.reservedKey fields).isNone
      | some _ => false
  | _ => false

end Content

variable {yaml : Library} {value other : yaml.Value} {entries others : Record yaml.Value}

/-! ### What is read -/

theorem exists_raw_cells (written : ∃ text, yaml.stringify entries = .ok text) :
    ∃ cells, rawCells yaml entries = .ok cells := by
  obtain ⟨text, written⟩ := written
  rw [rawCells, written]
  split
  · exact ⟨_, rfl⟩
  · exact ⟨_, rfl⟩

theorem of_text_with_header {text : Text} {body : List Text} {cells : List Cell}
    (headed : HasHeader yaml text value body)
    (written : rawCells yaml (otherEntries yaml value) = .ok cells) :
    Notebook.ofTextWith yaml text =
      .ok { cells := cells ++ Notebook.bodyCells body, metadata := metadataEntries yaml value } := by
  obtain ⟨header, cut, parsed⟩ := headed
  have read := read_with_eq_ok.mpr ⟨value, parsed, written, rfl⟩
  rw [Notebook.ofTextWith, Notebook.of_text_by_header cut, read]
  rfl

/-- A notebook that is stored is the one that is read, with its metadata as JSON. -/
theorem of_text_eq_stored (text : Text) :
    Notebook.ofText text =
      match Notebook.ofTextWith library text with
      | .error fault => .error (.header fault)
      | .ok notebook =>
          match metadataToJson? notebook.metadata with
          | none => .error .circular
          | some metadata => .ok { cells := notebook.cells, metadata } := by
  rw [Notebook.ofText, Notebook.ofTextWith]
  cases cut : split? (Notebook.documentLines text) with
  | none =>
      rw [Notebook.of_text_by_headless cut, Notebook.of_text_by_headless cut]
      rfl
  | some parts =>
      obtain ⟨header, body⟩ := parts
      rw [Notebook.of_text_by_header cut, Notebook.of_text_by_header cut, read]
      cases readWith library header with
      | error fault => rfl
      | ok found =>
          obtain ⟨metadata, cells⟩ := found
          simp only [Except.map]
          cases metadataToJson? metadata with
          | none => rfl
          | some json => rfl

/-! ### What a notebook tells -/

theorem same_entries_of_alike {cells otherCells body : List Cell}
    (writes : WritesApart yaml entries others) (written : rawCells yaml entries = .ok cells)
    (otherWritten : rawCells yaml others = .ok otherCells)
    (alike : List.Forall₂ Cell.Alike (cells ++ body) (otherCells ++ body)) :
    yaml.SameEntries entries others := by
  have size := alike.length_eq
  rw [List.length_append, List.length_append, Nat.add_right_cancel_iff] at size
  obtain ⟨rfl, rfl⟩ | ⟨text, -, here, rfl⟩ := raw_cells_cases written
  · obtain ⟨rfl, -⟩ | ⟨text, -, -, rfl⟩ := raw_cells_cases otherWritten
    · exact fun key way => rfl
    · cases size
  · obtain ⟨-, rfl⟩ | ⟨otherText, -, there, rfl⟩ := raw_cells_cases otherWritten
    · cases size
    · have source := (List.forall₂_cons.mp alike).1.source
      simp only [rawSource, List.append_cancel_left_eq, List.cons.injEq, true_and,
        List.append_cancel_right_eq] at source
      by_contra different
      exact writes.apart different (by rw [here, there, source])

/-! ### Mappings that keep their metadata -/

theorem record_of_keeps (keeps : keepsMetadata yaml value = true) :
    ∃ entries, yaml.content value = .record entries ∧
      ∀ held, Record.find? metadataKey entries = some held → ∃ fields,
        yaml.content held = .record fields ∧ fields ≠ [] ∧
          Record.find? Record.reservedKey fields = none := by
  unfold keepsMetadata at keeps
  split at keeps
  · rename_i entries content
    refine ⟨entries, content, fun held found => ?_⟩
    rw [found, Option.map_some] at keeps
    split at keeps
    · rename_i absent
      cases absent
    · rename_i fields same
      rw [Option.some.injEq] at same
      rw [Bool.and_eq_true, Option.isNone_iff_eq_none] at keeps
      exact ⟨fields, same, by simpa using keeps.1, keeps.2⟩
    · cases keeps
  · cases keeps

theorem entries_of_record (content : yaml.content value = .record entries) :
    entriesOf yaml value = entries := by
  rw [entriesOf, content]

theorem metadata_entries_of_absent (content : yaml.content value = .record entries)
    (absent : Record.find? metadataKey entries = none) : metadataEntries yaml value = [] := by
  rw [metadataEntries, entries_of_record content, absent]
  rfl

theorem metadata_entries_of_found {held : yaml.Value} {fields : Record yaml.Value}
    (content : yaml.content value = .record entries)
    (found : Record.find? metadataKey entries = some held)
    (mapping : yaml.content held = .record fields)
    (plain : Record.find? Record.reservedKey fields = none) :
    metadataEntries yaml value = fields := by
  rw [metadataEntries, entries_of_record content, found, Option.map_some, Option.getD_some,
    entries_of_record mapping, Record.erase_absent plain]

/-- Mappings that keep their metadata say the same if these do, and all other entries. -/
theorem says_same_of_kept (keeps : keepsMetadata yaml value = true)
    (otherKeeps : keepsMetadata yaml other = true)
    (metadata : yaml.SameEntries (metadataEntries yaml value) (metadataEntries yaml other))
    (besides : yaml.SameEntries (otherEntries yaml value) (otherEntries yaml other)) :
    yaml.SaysSame value other := by
  obtain ⟨entries, content, mapped⟩ := record_of_keeps keeps
  obtain ⟨others, otherContent, otherMapped⟩ := record_of_keeps otherKeeps
  refine Library.says_same_of_entries content otherContent fun key way => ?_
  by_cases isMetadata : key = metadataKey
  · subst isMetadata
    cases here : Record.find? metadataKey entries with
    | none =>
        rw [metadata_entries_of_absent content here] at metadata
        cases there : Record.find? metadataKey others with
        | none => rfl
        | some held =>
            obtain ⟨fields, mapping, present, plain⟩ := otherMapped held there
            rw [metadata_entries_of_found otherContent there mapping plain] at metadata
            exact absurd (Library.eq_nil_of_same_entries metadata) present
    | some held =>
        obtain ⟨fields, mapping, present, plain⟩ := mapped held here
        rw [metadata_entries_of_found content here mapping plain] at metadata
        cases there : Record.find? metadataKey others with
        | none =>
            rw [metadata_entries_of_absent otherContent there] at metadata
            exact absurd (Library.eq_nil_of_same_entries metadata.symm) present
        | some otherHeld =>
            obtain ⟨otherFields, otherMapping, -, otherPlain⟩ := otherMapped otherHeld there
            rw [metadata_entries_of_found otherContent there otherMapping otherPlain] at metadata
            exact Library.says_same_of_entries mapping otherMapping metadata way
  · have found := besides key way
    rwa [otherEntries, otherEntries, entries_of_record content, entries_of_record otherContent,
      Record.find_erase_other isMetadata,
      Record.find_erase_other isMetadata] at found

end Header

open Header

/-- Headers in front of one body give different notebooks if they differ in an entry
of the metadata mapping or in any other entry, provided that different mappings are
written differently. So do all headers that differ and keep their metadata. -/
theorem Notebook.headers_told_apart {yaml : Library} {text otherText : Text}
    {value other : yaml.Value} {body : List Text} (headed : HasHeader yaml text value body)
    (otherHeaded : HasHeader yaml otherText other body)
    (writes : WritesApart yaml (otherEntries yaml value) (otherEntries yaml other)) :
    ∃ notebook otherNotebook, ofTextWith yaml text = .ok notebook ∧
      ofTextWith yaml otherText = .ok otherNotebook ∧
      (¬yaml.SameEntries (metadataEntries yaml value) (metadataEntries yaml other) ∨
        ¬yaml.SameEntries (otherEntries yaml value) (otherEntries yaml other) →
          ¬Alike yaml notebook otherNotebook) ∧
      (keepsMetadata yaml value = true → keepsMetadata yaml other = true →
        ¬yaml.SaysSame value other → ¬Alike yaml notebook otherNotebook) := by
  obtain ⟨cells, written⟩ := exists_raw_cells writes.first
  obtain ⟨otherCells, otherWritten⟩ := exists_raw_cells writes.second
  refine ⟨_, _, of_text_with_header headed written, of_text_with_header otherHeaded otherWritten,
    ?_⟩
  constructor
  · rintro different alike
    have besides := same_entries_of_alike writes written otherWritten alike.cells
    exact different.elim (· alike.metadata) (· besides)
  · intro keeps otherKeeps different alike
    have besides := same_entries_of_alike writes written otherWritten alike.cells
    exact different (says_same_of_kept keeps otherKeeps alike.metadata besides)

namespace Header

/-! ### Documents with a given header -/

def document (header body : Text) : Text :=
  delimiter ++ '\n' :: (header ++ '\n' :: (delimiter ++ '\n' :: body))

def valueOf (header : Text) : Graph :=
  (Graph.parse header).toOption.getD { objects := [], value := .scalar .null }

theorem exists_ok {Fault Found : Type} {result : Except Fault Found}
    (done : result.toOption.isSome = true) : ∃ found, result = .ok found := by
  cases result with
  | error fault => cases done
  | ok found => exact ⟨found, rfl⟩

/-- The header is cut off in front of the body, and has a value. -/
abbrev IsParsed (header body : Text) : Prop :=
  split? (Notebook.documentLines (document header body)) = some (lines header, lines body) ∧
    (Graph.parse header).toOption.isSome = true

theorem document_has_header {header body : Text} (parsed : IsParsed header body) :
    HasHeader library (document header body) (valueOf header) (lines body) := by
  obtain ⟨value, read⟩ := exists_ok parsed.2
  refine ⟨lines header, parsed.1, ?_⟩
  rw [join_lines_of_lines, valueOf, read]
  exact read

end Header

/-- Another item of a set in the metadata, beside a list that contains itself, and
another title. -/
theorem Notebook.headers_told_apart_nested :
    let header := "jupyter: \x7ba: !!set \x7bb, c\x7d, l: &l [*l]\x7d\ntitle: &t [one, *t]".toList
    let otherHeader :=
      "title: &t [two, *t]\njupyter: \x7bl: &l [*l], a: !!set \x7bb, d\x7d\x7d".toList
    let body := "Text\n".toList
    let value := valueOf header
    let other := valueOf otherHeader
    HasHeader library (document header body) value (Text.lines body) ∧
      HasHeader library (document otherHeader body) other (Text.lines body) ∧
      WritesApart library (otherEntries library value) (otherEntries library other) ∧
      keepsMetadata library value = true ∧ keepsMetadata library other = true ∧
      ¬library.SaysSame value other ∧
      ∃ notebook otherNotebook, ofTextWith library (document header body) = .ok notebook ∧
        ofTextWith library (document otherHeader body) = .ok otherNotebook ∧
        ¬Alike library notebook otherNotebook := by
  intro header otherHeader body value other
  let way : List Turn := [.key metadataKey, .key "a".toList, .item 1]
  -- Checked at once, so the headers are parsed once.
  have checked : (IsParsed header body ∧ IsParsed otherHeader body) ∧
      ((library.stringify (otherEntries library value)).toOption.isSome = true ∧
        (library.stringify (otherEntries library other)).toOption.isSome = true ∧
        (library.stringify (otherEntries library value)).toOption ≠
          (library.stringify (otherEntries library other)).toOption) ∧
      keepsMetadata library value = true ∧ keepsMetadata library other = true ∧
      library.shapeAt? way value ≠ library.shapeAt? way other := by
    decide +kernel
  obtain ⟨⟨parsed, otherParsed⟩, ⟨written, otherWritten, apart⟩, keeps, otherKeeps, shapes⟩ :=
    checked
  have headed : HasHeader library (document header body) value (Text.lines body) :=
    document_has_header parsed
  have otherHeaded : HasHeader library (document otherHeader body) other (Text.lines body) :=
    document_has_header otherParsed
  have writes : WritesApart library (otherEntries library value) (otherEntries library other) :=
    ⟨exists_ok written, exists_ok otherWritten, fun _ same => apart (congrArg Except.toOption same)⟩
  have different : ¬library.SaysSame value other := fun same => shapes (same way)
  obtain ⟨notebook, otherNotebook, read, otherRead, -, told⟩ :=
    headers_told_apart headed otherHeaded writes
  exact ⟨headed, otherHeaded, writes, keeps, otherKeeps, different, notebook, otherNotebook,
    read, otherRead, told keeps otherKeeps different⟩

namespace Header

/-- Different headers that give one notebook in front of a body, though the library
writes what is left of them. -/
structure Confused (header otherHeader body : Text) : Prop where
  headed : HasHeader library (document header body) (valueOf header) (lines body)
  otherHeaded : HasHeader library (document otherHeader body) (valueOf otherHeader) (lines body)
  different : ¬library.SaysSame (valueOf header) (valueOf otherHeader)
  writes : WritesApart library (otherEntries library (valueOf header))
    (otherEntries library (valueOf otherHeader))
  same : ∃ notebook, Notebook.ofTextWith library (document header body) = .ok notebook ∧
    Notebook.ofTextWith library (document otherHeader body) = .ok notebook

/-- A header in front of a body of which nothing is kept. -/
abbrev IsDropped (header body : Text) : Prop :=
  IsParsed header body ∧ metadataEntries library (valueOf header) = [] ∧
    otherEntries library (valueOf header) = []

theorem of_text_of_dropped {header body : Text} (dropped : IsDropped header body) :
    HasHeader library (document header body) (valueOf header) (lines body) ∧
      Notebook.ofTextWith library (document header body) =
        .ok { cells := Notebook.bodyCells (lines body), metadata := [] } := by
  obtain ⟨parsed, metadata, besides⟩ := dropped
  have headed := document_has_header parsed
  have nothing : rawCells library (otherEntries library (valueOf header)) = .ok [] := by
    rw [besides]
    rfl
  have read := of_text_with_header headed nothing
  rw [metadata] at read
  exact ⟨headed, read⟩

theorem confused_of_dropped {header otherHeader body : Text} (way : List Turn)
    (dropped : IsDropped header body) (otherDropped : IsDropped otherHeader body)
    (different : library.shapeAt? way (valueOf header) ≠
      library.shapeAt? way (valueOf otherHeader)) : Confused header otherHeader body := by
  obtain ⟨headed, read⟩ := of_text_of_dropped dropped
  obtain ⟨otherHeaded, otherRead⟩ := of_text_of_dropped otherDropped
  have written : ∃ text, library.stringify [] = .ok text := exists_ok (by decide +kernel)
  refine ⟨headed, otherHeaded, fun same => different (same way), ?_, _, read, otherRead⟩
  rw [dropped.2.2, otherDropped.2.2]
  exact ⟨written, written, fun differs => absurd (fun _ _ => rfl) differs⟩

end Header

/-- A header that is no mapping, metadata that are none or have no entries, and the
reserved key are not kept. A set is no mapping. -/
theorem Notebook.headers_not_told_apart :
    let body := "Text\n".toList
    Confused "- a".toList "- b".toList body ∧
      Confused "jupyter: a".toList "jupyter: b".toList body ∧
      Confused "jupyter: !!set \x7ba\x7d".toList "jupyter: !!set \x7bb\x7d".toList body ∧
      Confused "jupyter: \x7b\x7d".toList "".toList body ∧
      Confused "jupyter: \x7b__proto__: 1\x7d".toList "jupyter: \x7b__proto__: 2\x7d".toList
        body := by
  intro body
  refine ⟨confused_of_dropped [.item 0] ?_ ?_ ?_,
    confused_of_dropped [.key metadataKey] ?_ ?_ ?_,
    confused_of_dropped [.key metadataKey, .item 0] ?_ ?_ ?_,
    confused_of_dropped [.key metadataKey] ?_ ?_ ?_,
    confused_of_dropped [.key metadataKey, .key Record.reservedKey] ?_ ?_ ?_⟩
  all_goals decide +kernel

end LessonBook
