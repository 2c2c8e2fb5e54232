import LessonBook.Proofs.CommandLine.Refusal
import LessonBook.Proofs.Json.RoundTrip

/-!
What a successful run leaves. The notebooks of all pages and the manifest stand in
the output directory; where a notebook has the name of the manifest, the manifest
is what is left.
-/

namespace LessonBook

open Text

/-! ### Notebooks and manifests are told apart by their blanks -/

namespace Json

theorem pretty_front (indent : Nat) {entries : Record Json} (present : entries ≠ []) :
    ∃ rest, pretty indent (object entries) = '\x7b' :: (newLine indent 1 ++ '"' :: rest) := by
  have ordered : Record.inKeyOrder entries ≠ [] := by
    intro nothing
    have same := (Record.in_key_order_perm entries).length_eq
    rw [nothing] at same
    exact present (List.length_eq_zero_iff.mp same.symm)
  obtain ⟨first, others, order⟩ := List.exists_cons_of_ne_nil ordered
  rw [pretty, print_object indent 0 present, order, entriesText, List.map_cons]
  cases others <;> simp [intercalate, entryText, quote]

end Json

theorem notebook_ne_manifest (notebook : Notebook) (language : Text) :
    Utf8.encode notebook.toText ≠ Utf8.encode (Manifest.toText language) := by
  have front : ∃ rest, notebook.toText = '\x7b' :: '\n' :: ' ' :: '"' :: rest := by
    rw [Notebook.toText, Notebook.toJson]
    obtain ⟨rest, written⟩ := Json.pretty_front 1 (List.cons_ne_nil _ _)
    rw [written]
    exact ⟨_, rfl⟩
  have front' : ∃ rest, Manifest.toText language = '\x7b' :: '\n' :: ' ' :: ' ' :: rest := by
    rw [Manifest.toText, Manifest.toJson]
    obtain ⟨rest, written⟩ := Json.pretty_front 2 (List.cons_ne_nil _ _)
    rw [written]
    exact ⟨_, rfl⟩
  obtain ⟨rest, notebookText⟩ := front
  obtain ⟨rest', manifestText⟩ := front'
  rw [notebookText, manifestText]
  intro same
  have fourth := congrArg (fun bytes => bytes[3]?) same
  exact absurd (Option.some.inj fourth) (by decide)

namespace CommandLine

variable {surroundings : Surroundings} {arguments : List Text} {found : Arguments}
  {config : Config} {store : FileStore}

theorem find_behind_manifest {converted after : FileStore} {directory : FilePath}
    {content : List Utf8.Byte} (wellFormed : converted.WellFormed)
    (ready : converted.find? directory = some .directory)
    (output : converted.output (directory ++ [Manifest.fileName]) content = (.ok (), after))
    (path : FilePath) :
    after.find? path =
      if directory ++ [Manifest.fileName] = path then some (.file content)
      else converted.find? path := by
  have free : converted.find? (directory ++ [Manifest.fileName]) ≠ some .directory := by
    intro taken
    cases (FileStore.output_at_directory wellFormed taken content).symm.trans output
  have occupied : Manifest.fileName ≠ [] := by decide
  rw [FileStore.output_in_directory occupied ready free] at output
  cases output
  exact FileStore.find_put _ _ _ _

/-- A notebook still stands behind the manifest unless it has its name. -/
theorem notebook_stands_iff {converted after : FileStore} {directory : FilePath}
    {language name : Text} {notebook : Notebook}
    (find : ∀ path, after.find? path = if directory ++ [Manifest.fileName] = path
      then some (.file (Utf8.encode (Manifest.toText language))) else converted.find? path)
    (held : converted.find? (directory ++ [name]) =
      some (.file (Utf8.encode notebook.toText))) :
    after.find? (directory ++ [name]) = some (.file (Utf8.encode notebook.toText)) ↔
      name ≠ Manifest.fileName := by
  rw [find]
  constructor
  · intro stands clash
    rw [clash, if_pos rfl] at stands
    exact notebook_ne_manifest notebook language
      (FileEntry.file.inj (Option.some.inj stands)).symm
  · intro different
    rw [if_neg]
    · exact held
    · intro same
      exact different (List.singleton_inj.mp (List.append_cancel_left same)).symm

theorem separate_batch (found : Arguments) (proper : surroundings.directory.IsProper)
    (valid : config.IsValid) (unbroken : '/' ∉ config.outputSuffix)
    (apart : surroundings.directory.resolve found.outputDirectory ≠
      surroundings.directory.resolve found.inputDirectory) :
    (batchOf surroundings found config).IsSeparate :=
  ⟨proper.resolve found.outputDirectory, apart, valid.inputSuffix, unbroken⟩

theorem file_text_eq_ok {batch : Batch} {content text : Text} :
    batch.fileText content = .ok text ↔
      ∃ notebook, Page.toNotebook batch.reading batch.kernel content = .ok notebook ∧
        notebook.toText = text := by
  rw [Batch.fileText]
  split <;> simp_all

/-- What stands behind a run that has written all pages and then the manifest. -/
theorem runs_alone_of_success (wellFormed : store.WellFormed)
    (separate : (batchOf surroundings found config).IsSeparate)
    (succeeds : (runWith surroundings found config store).result = .ok 0) :
    ∃ names made last, (batchOf surroundings found config).sources store = .ok names ∧
      FileStore.Makes store (batchOf surroundings found config).outputDirectory made ∧
      (batchOf surroundings found config).RunsAlone made made names [] last ∧
      ∀ path, (runWith surroundings found config store).store.find? path =
        if (batchOf surroundings found config).outputDirectory ++ [Manifest.fileName] = path
        then some (.file (Utf8.encode (Manifest.toText config.language)))
        else last.find? path := by
  obtain ⟨result, last, ran, output, code⟩ := run_with_ok succeeds
  obtain ⟨names, made, converted, listed, created, converts, -⟩ := Batch.run_ok ran
  have complete : result.failures = [] := by
    cases failures : result.failures with
    | nil => rfl
    | cons first others => simp [failures] at code
  rw [complete] at converts
  have makes := FileStore.makes_of_make_directory wellFormed separate.proper created
  have alone := Batch.converts_alone separate wellFormed listed created (List.Sublist.refl names)
    converts.all_written
  have ready := (alone.alike.directories _).mpr (makes.directory (List.prefix_refl _))
  exact ⟨names, made, last, listed, makes, alone,
    find_behind_manifest alone.alike.wellFormed ready output⟩

/-- A run that succeeds leaves the manifest, and for every page its notebook unless
that has the name of the manifest; the pages themselves stay as they are. -/
theorem run_keeps_notebooks (wellFormed : store.WellFormed)
    (proper : surroundings.directory.IsProper)
    (read : Arguments.parse? arguments = some found)
    (settles : settled surroundings found store = .ok config)
    (unbroken : '/' ∉ config.outputSuffix)
    (apart : surroundings.directory.resolve found.outputDirectory ≠
      surroundings.directory.resolve found.inputDirectory)
    (succeeds : (run surroundings arguments store).result = .ok 0) :
    let after := (run surroundings arguments store).store
    let input := surroundings.directory.resolve found.inputDirectory
    let output := surroundings.directory.resolve found.outputDirectory
    after.find? (output ++ [Manifest.fileName]) =
        some (.file (Utf8.encode (Manifest.toText config.language))) ∧
      (∀ name content, after.find? (input ++ [name]) = some (.file content) ↔
        store.find? (input ++ [name]) = some (.file content)) ∧
      ∀ name content, store.find? (input ++ [name]) = some (.file content) →
        endsWith config.inputSuffix name = true →
        ∃ notebook, Page.toNotebook ⟨Extension.all, config.haltLevel⟩ config.kernel
            (Utf8.decode content) = .ok notebook ∧
          (after.find? (output ++ [Batch.stem config.inputSuffix name ++ config.outputSuffix]) =
              some (.file (Utf8.encode notebook.toText)) ↔
            Batch.stem config.inputSuffix name ++ config.outputSuffix ≠ Manifest.fileName) := by
  intro after input output
  rcases settled_cases surroundings store read with
    ⟨error, unsettled, -⟩ | ⟨loaded, config', -, settles', valid, -⟩
  · cases unsettled.symm.trans settles
  obtain rfl : config' = config := Except.ok.inj (settles'.symm.trans settles)
  obtain ⟨ran, left⟩ := run_of_settled surroundings store read
  rw [settles] at ran left
  have separate := separate_batch found proper valid unbroken apart
  obtain ⟨names, made, last, listed, makes, alone, find⟩ :=
    runs_alone_of_success wellFormed separate (ran.symm.trans succeeds)
  replace find (path : FilePath) : after.find? path =
      if output ++ [Manifest.fileName] = path
      then some (.file (Utf8.encode (Manifest.toText config'.language))) else last.find? path :=
    (congrArg _ left).trans (find path)
  refine ⟨by rw [find, if_pos rfl], ?_, ?_⟩
  · intro name content
    have elsewhere : output ++ [Manifest.fileName] ≠ input ++ [name] :=
      fun same => apart (List.append_inj_left' same rfl)
    have pages : last.find? (input ++ [name]) = made.find? (input ++ [name]) :=
      alone.alike.pages name
    rw [find, if_neg elsewhere, pages, makes.find_file_iff]
  · intro name content page ends
    have source : name ∈ names := (Batch.mem_sources wellFormed listed).mpr
      ⟨FileStore.is_file_iff.mpr ⟨content, page⟩, ends⟩
    obtain ⟨content', text, page', converted, held⟩ :=
      (alone.written.of_made makes).held name source
    cases page.symm.trans page'
    obtain ⟨notebook, made, rfl⟩ := file_text_eq_ok.mp converted
    exact ⟨notebook, made, notebook_stands_iff find held⟩

/-- Among the pages are one without a stem, one whose notebook is there already, and
one whose notebook has the name of the manifest. -/
theorem run_keeps_notebooks_clashing :
    let page : FileEntry := .file (Utf8.encode "# A\n".toList)
    let store : FileStore := [(["in".toList], .directory), (["out".toList], .directory),
      (["in".toList, "jupyter-lite.Rmd".toList], page), (["in".toList, "a.Rmd".toList], page),
      (["in".toList, ".Rmd".toList], page), (["out".toList, "a.json".toList], page),
      (["c.json".toList],
        .file (Utf8.encode "\x7b\"outputSuffix\": \".json\"\x7d".toList))]
    let surroundings : Surroundings := ⟨[], none⟩
    let arguments := ["in".toList, "out".toList, "--config=c.json".toList]
    let found : Arguments := ⟨"in".toList, "out".toList, some "c.json".toList, none, false⟩
    let config : Config := { outputSuffix := ".json".toList }
    let after := (run surroundings arguments store).store
    store.WellFormed ∧ surroundings.directory.IsProper ∧
      Arguments.parse? arguments = some found ∧
      settled surroundings found store = .ok config ∧ '/' ∉ config.outputSuffix ∧
      surroundings.directory.resolve found.outputDirectory ≠
        surroundings.directory.resolve found.inputDirectory ∧
      (run surroundings arguments store).result = .ok 0 ∧
      after.find? ["out".toList, "jupyter-lite.json".toList] =
        some (.file (Utf8.encode (Manifest.toText "python".toList))) ∧
      ∀ name ∈ [".Rmd".toList, "a.Rmd".toList, "jupyter-lite.Rmd".toList],
        ∃ notebook, Page.toNotebook {} {} (Utf8.decode (Utf8.encode "# A\n".toList)) =
            .ok notebook ∧
          (after.find? ["out".toList, Batch.stem ".Rmd".toList name ++ ".json".toList] =
              some (.file (Utf8.encode notebook.toText)) ↔
            Batch.stem ".Rmd".toList name ++ ".json".toList ≠ Manifest.fileName) := by
  intro page store surroundings arguments found config after
  have wellFormed : store.WellFormed := by decide
  have proper : surroundings.directory.IsProper := FilePath.proper_root
  have read : Arguments.parse? arguments = some found := by decide +kernel
  have settles : settled surroundings found store = .ok config := by decide +kernel
  have unbroken : '/' ∉ config.outputSuffix := by decide
  have apart : surroundings.directory.resolve found.outputDirectory ≠
      surroundings.directory.resolve found.inputDirectory := by decide
  have listed : (batchOf surroundings found config).sources store =
      .ok [".Rmd".toList, "a.Rmd".toList, "jupyter-lite.Rmd".toList] :=
    Batch.sources_of_perm wellFormed rfl (by decide +kernel) (by decide +kernel)
  have created : store.makeDirectory (batchOf surroundings found config).outputDirectory =
      .ok store := by decide +kernel
  have succeeds : (run surroundings arguments store).result = .ok 0 := by
    rw [(run_of_settled surroundings store read).1, settles]
    simp only [Except.bind, runWith, Batch.run_eq _ listed created]
    decide +kernel
  obtain ⟨manifest, -, kept⟩ :=
    run_keeps_notebooks wellFormed proper read settles unbroken apart succeeds
  refine ⟨wellFormed, proper, read, settles, unbroken, apart, succeeds, manifest, ?_⟩
  intro name member
  refine kept name (Utf8.encode "# A\n".toList) ?_ ?_
  · revert name
    decide +kernel
  · revert name
    decide +kernel

/-- A notebook with the name of the manifest is lost by a run that succeeds. -/
theorem run_loses_notebook :
    let store : FileStore := [(["in".toList], .directory),
      (["in".toList, "jupyter-lite.Rmd".toList], .file (Utf8.encode "# A\n".toList)),
      (["c.json".toList],
        .file (Utf8.encode "\x7b\"outputSuffix\": \".json\"\x7d".toList))]
    let ran := run ⟨[], none⟩ ["in".toList, "out".toList, "--config=c.json".toList] store
    store.WellFormed ∧ ran.result = .ok 0 ∧ ∃ notebook,
      Page.toNotebook {} {} (Utf8.decode (Utf8.encode "# A\n".toList)) = .ok notebook ∧
      ran.store.find? ["out".toList, "jupyter-lite.json".toList] ≠
        some (.file (Utf8.encode notebook.toText)) := by
  intro store ran
  have wellFormed : store.WellFormed := by decide
  let found : Arguments := ⟨"in".toList, "out".toList, some "c.json".toList, none, false⟩
  let config : Config := { outputSuffix := ".json".toList }
  have read : Arguments.parse? ["in".toList, "out".toList, "--config=c.json".toList] =
      some found := by decide +kernel
  have settles : settled ⟨[], none⟩ found store = .ok config := by decide +kernel
  have listed : (batchOf ⟨[], none⟩ found config).sources store =
      .ok ["jupyter-lite.Rmd".toList] :=
    Batch.sources_of_perm wellFormed rfl (by decide +kernel) (by decide +kernel)
  have created : store.makeDirectory (batchOf ⟨[], none⟩ found config).outputDirectory =
      .ok (store ++ [(["out".toList], .directory)]) := by decide +kernel
  obtain ⟨result, after⟩ := run_of_settled ⟨[], none⟩ store read
  rw [settles] at result after
  simp only [Except.bind, runWith, Batch.run_eq _ listed created] at result after
  have left : ran.store.find? ["out".toList, "jupyter-lite.json".toList] =
      some (.file (Utf8.encode (Manifest.toText "python".toList))) := by
    rw [after]
    decide +kernel
  refine ⟨wellFormed, result.trans (by decide +kernel), ?_⟩
  cases made : Page.toNotebook {} {} (Utf8.decode (Utf8.encode "# A\n".toList)) with
  | error error =>
      have accepted : (Page.toNotebook {} {}
        (Utf8.decode (Utf8.encode "# A\n".toList))).isOk = true := by decide +kernel
      rw [made] at accepted
      cases accepted
  | ok notebook =>
      refine ⟨notebook, rfl, ?_⟩
      rw [left]
      intro same
      exact notebook_ne_manifest notebook "python".toList
        (FileEntry.file.inj (Option.some.inj same)).symm

end CommandLine

end LessonBook
