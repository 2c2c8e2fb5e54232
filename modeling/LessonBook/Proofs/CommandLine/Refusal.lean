import LessonBook.CommandLine
import LessonBook.Proofs.Batch.Separation
import LessonBook.Proofs.Config.Rules

/-!
Runs of the command line. A run is refused before it has changed anything, or it
converts its pages and ends with the manifest and a code that tells whether all
of them were written.
-/

namespace LessonBook.CommandLine

open Text

variable {surroundings : Surroundings} {arguments : List Text} {found : Arguments}
  {store : FileStore}

def settled (surroundings : Surroundings) (found : Arguments) (store : FileStore) :
    Except RunError Config :=
  (readConfig surroundings found.configPath store).1.bind (effectiveConfig found.language)

/-- The checks that a run may not pass, each with what the run then comes to. -/
inductive Refuses (surroundings : Surroundings) (arguments : List Text) (store : FileStore) :
    Except RunError Nat → Prop
  | usage (unread : Arguments.parse? arguments = none) :
      Refuses surroundings arguments store (.ok 1)
  | absent {found : Arguments} {requested : Text} (read : Arguments.parse? arguments = some found)
      (asked : requestedConfig surroundings found.configPath = some requested)
      (named : requested ≠ [])
      (absent : store.find? (configFilePath surroundings found.configPath) = none) :
      Refuses surroundings arguments store
        (.error (.config (.notFound (configFilePath surroundings found.configPath).toText)))
  | unreadable {found : Arguments} {error : StorageError}
      (read : Arguments.parse? arguments = some found)
      (present : (store.find? (configFilePath surroundings found.configPath)).isSome = true)
      (unreadable : store.read (configFilePath surroundings found.configPath) = .error error) :
      Refuses surroundings arguments store (.error (.storage error))
  | malformed {found : Arguments} {bytes : List Utf8.Byte}
      (read : Arguments.parse? arguments = some found)
      (held : store.read (configFilePath surroundings found.configPath) = .ok bytes)
      (malformed : Json.ofText? (withoutMark (Utf8.decode bytes)) = none) :
      Refuses surroundings arguments store
        (.error (.badJson (configFilePath surroundings found.configPath)))
  | invalid {found : Arguments} {bytes : List Utf8.Byte} {data : Json} {error : ConfigError}
      (read : Arguments.parse? arguments = some found)
      (held : store.read (configFilePath surroundings found.configPath) = .ok bytes)
      (formed : Json.ofText? (withoutMark (Utf8.decode bytes)) = some data)
      (invalid : Config.ofJson (some (configFilePath surroundings found.configPath).toText) data =
        .error error) :
      Refuses surroundings arguments store (.error (.config error))
  | language {found : Arguments} {loaded : Config} {language : Text} {error : ConfigError}
      (read : Arguments.parse? arguments = some found)
      (loads : (readConfig surroundings found.configPath store).1 = .ok loaded)
      (asked : found.language = some language)
      (refused : loaded.withLanguage language (some "--language".toList) = .error error) :
      Refuses surroundings arguments store (.error (.config error))
  | unlisted {found : Arguments} {config : Config} {error : StorageError}
      (read : Arguments.parse? arguments = some found)
      (settles : settled surroundings found store = .ok config)
      (unlisted : store.list (surroundings.directory.resolve found.inputDirectory) = .error error) :
      Refuses surroundings arguments store (.error (.document (.storage error)))

instance decidableIsOk {Error Value : Type} [DecidableEq Value] (outcome : Except Error Value)
    (value : Value) : Decidable (outcome = .ok value) :=
  match outcome with
  | .ok held => decidable_of_iff (held = value) ⟨congrArg _, Except.ok.inj⟩
  | .error _ => isFalse nofun

/-! ### The configuration -/

theorem config_without_file_cases (requested : Option Text) (path : FilePath) :
    (∃ name, requested = some name ∧ name ≠ [] ∧
      (configWithoutFile requested path).1 = .error (.config (.notFound path.toText))) ∨
    (configWithoutFile requested path).1 = .ok {} := by
  rcases requested with - | ⟨- | ⟨c, name⟩⟩
  · exact .inr rfl
  · exact .inr rfl
  · exact .inl ⟨c :: name, rfl, nofun, rfl⟩

/-- A configuration that cannot be read refuses the run, and one that can is valid. -/
theorem read_config_cases (surroundings : Surroundings) (store : FileStore)
    (read : Arguments.parse? arguments = some found) :
    (∃ error, (readConfig surroundings found.configPath store).1 = .error error ∧
      Refuses surroundings arguments store (.error error)) ∨
    ∃ loaded, (readConfig surroundings found.configPath store).1 = .ok loaded ∧ loaded.IsValid := by
  rw [readConfig]
  cases present : store.find? (configFilePath surroundings found.configPath) with
  | none =>
      rcases config_without_file_cases (requestedConfig surroundings found.configPath)
        (configFilePath surroundings found.configPath) with ⟨name, asked, named, fails⟩ | standard
      · exact .inl ⟨_, fails, .absent read asked named present⟩
      · exact .inr ⟨{}, standard, Config.valid_of_defaults⟩
  | some entry =>
      cases held : store.read (configFilePath surroundings found.configPath) with
      | error error =>
          exact .inl ⟨.storage error, rfl,
            .unreadable read (by rw [present]; rfl) held⟩
      | ok bytes =>
          cases formed : Json.ofText? (withoutMark (Utf8.decode bytes)) with
          | none => exact .inl ⟨_, by simp only [formed], .malformed read held formed⟩
          | some data =>
              cases accepted : Config.ofJson
                  (some (configFilePath surroundings found.configPath).toText) data with
              | error error =>
                  exact .inl ⟨.config error, by simp only [formed, accepted]; rfl,
                    .invalid read held formed accepted⟩
              | ok loaded =>
                  exact .inr ⟨loaded, by simp only [formed, accepted]; rfl,
                    Config.valid_of_json accepted⟩

/-- A configuration that is not settled refuses the run. One that is settled is that of
the file or the defaults, with the language of the command line if there is one. -/
theorem settled_cases (surroundings : Surroundings) (store : FileStore)
    (read : Arguments.parse? arguments = some found) :
    (∃ error, settled surroundings found store = .error error ∧
      Refuses surroundings arguments store (.error error)) ∨
    ∃ loaded config, (readConfig surroundings found.configPath store).1 = .ok loaded ∧
      settled surroundings found store = .ok config ∧ config.IsValid ∧
      config = { loaded with language := found.language.getD loaded.language } := by
  rcases read_config_cases surroundings store read with
    ⟨error, fails, refused⟩ | ⟨loaded, loads, valid⟩
  · exact .inl ⟨error, by rw [settled, fails]; rfl, refused⟩
  · have bound : settled surroundings found store = effectiveConfig found.language loaded := by
      rw [settled, loads]
      rfl
    rw [bound]
    cases asked : found.language with
    | none => exact .inr ⟨loaded, loaded, loads, rfl, valid, rfl⟩
    | some language =>
        have outcome :=
          Config.with_language_eq valid.toHasTexts language (some "--language".toList)
        rw [effectiveConfig]
        split at outcome
        · rename_i accepted
          refine .inr ⟨loaded, { loaded with language }, loads, by rw [outcome]; rfl, ?_, rfl⟩
          exact ⟨⟨valid.kernelName, valid.kernelDisplayName, valid.inputSuffix,
            valid.outputSuffix⟩, accepted⟩
        · exact .inl ⟨_, by rw [outcome]; rfl, .language read loads asked outcome⟩

/-! ### Refused and settled runs -/

theorem run_of_usage (unread : Arguments.parse? arguments = none) :
    (run surroundings arguments store).result = .ok 1 ∧
      (run surroundings arguments store).store = store := by
  rw [run, unread]
  exact ⟨rfl, rfl⟩

theorem run_of_settled (surroundings : Surroundings) (store : FileStore)
    (read : Arguments.parse? arguments = some found) :
    (run surroundings arguments store).result =
        (settled surroundings found store).bind
          (fun config => (runWith surroundings found config store).result) ∧
      (run surroundings arguments store).store =
        match settled surroundings found store with
        | .error _ => store
        | .ok config => (runWith surroundings found config store).store := by
  rw [run, read]
  cases outcome : readConfig surroundings found.configPath store with
  | mk loaded report =>
      have bound : settled surroundings found store =
          loaded.bind (effectiveConfig found.language) := by rw [settled, outcome]
      rw [bound]
      cases loaded with
      | error error => simp [outcome, Except.bind]
      | ok loaded =>
          cases settles : effectiveConfig found.language loaded with
          | error error => simp [outcome, settles, Except.bind]
          | ok config => simp [outcome, settles, Except.bind]

theorem manifest_path (directory : FilePath) :
    Manifest.path directory = directory ++ [Manifest.fileName] := rfl

/-- A run that returns a code has converted its pages and then written the manifest. -/
theorem run_with_ok {config : Config} {code : Nat}
    (done : (runWith surroundings found config store).result = .ok code) :
    ∃ result converted, (batchOf surroundings found config).run store = (.ok result, converted) ∧
      converted.output
          ((batchOf surroundings found config).outputDirectory ++ [Manifest.fileName])
          (Utf8.encode (Manifest.toText config.language)) =
        (.ok (), (runWith surroundings found config store).store) ∧
      code = if result.failures.isEmpty then 0 else 1 := by
  rw [runWith] at done ⊢
  cases ran : (batchOf surroundings found config).run store with
  | mk outcome converted =>
      cases outcome with
      | error error =>
          simp only [ran] at done
          cases done
      | ok result =>
          simp only [ran, Manifest.write, manifest_path] at done ⊢
          cases output : converted.output
              ((batchOf surroundings found config).outputDirectory ++ [Manifest.fileName])
              (Utf8.encode (Manifest.toText config.language)) with
          | mk written after =>
              simp only [output] at done ⊢
              cases written with
              | error error => cases done
              | ok _ =>
                  cases done
                  exact ⟨result, converted, rfl, output, rfl⟩

/-- A run fails with a page, or with what is done in front of the pages, if its batch does. -/
theorem run_with_document_iff {config : Config} :
    (∃ error, (runWith surroundings found config store).result = .error (.document error)) ↔
      ∃ error after, (batchOf surroundings found config).run store = (.error error, after) := by
  rw [runWith]
  cases ran : (batchOf surroundings found config).run store with
  | mk outcome converted =>
      cases outcome with
      | error error => simp
      | ok result =>
          cases output : Manifest.write (batchOf surroundings found config).outputDirectory
              config.language converted with
          | mk written after => cases written <;> simp [output]

/-- How a run ends that has passed its checks, with a batch and the names of its pages. -/
structure Ends (found : Arguments) (loaded : Config) (batch : Batch) (names : List Text)
    (store : FileStore) (result : Except RunError Nat) (after : FileStore) : Prop where
  code : ∀ {code}, result = .ok code → ∃ made,
    store.makeDirectory batch.outputDirectory = .ok made ∧
      after.find? (batch.outputDirectory ++ [Manifest.fileName]) =
        some (.file (Utf8.encode (Manifest.toText (found.language.getD loaded.language)))) ∧
      code ≤ 1 ∧ (code = 0 ↔ ∃ last, batch.WritesAll made names last)
  stopped : ∀ {made}, store.makeDirectory batch.outputDirectory = .ok made →
    ((∃ error, result = .error (.document error)) ↔ (found.continueOnError = false ∧
      loaded.onError = .abort) ∧ ∀ last, ¬batch.WritesAll made names last)

theorem on_error_eq_abort {config : Config} :
    (batchOf surroundings found config).onError = .abort ↔
      found.continueOnError = false ∧ config.onError = .abort := by
  rw [batchOf]
  cases found.continueOnError <;> simp

theorem run_with_ends {loaded config : Config} {names : List Text}
    (language : config = { loaded with language := found.language.getD loaded.language })
    (listed : (batchOf surroundings found config).sources store = .ok names) :
    Ends found loaded (batchOf surroundings found config) names store
      (runWith surroundings found config store).result
      (runWith surroundings found config store).store := by
  have policy : config.onError = loaded.onError := by rw [language]
  have effective : config.language = found.language.getD loaded.language := by rw [language]
  constructor
  · intro code done
    obtain ⟨result, last, ran, output, rfl⟩ := run_with_ok done
    obtain ⟨names', made, converted, listed', created, converts, -⟩ := Batch.run_ok ran
    cases listed.symm.trans listed'
    refine ⟨made, created, ?_, ?_, ?_⟩
    · rw [← effective]
      exact FileStore.find_output output
    · split <;> omega
    · rw [← converts.failures_eq_nil_iff]
      cases result.failures <;> simp
  · intro made created
    rw [run_with_document_iff, Batch.run_error_iff listed created, on_error_eq_abort, policy]

theorem run_with_error {config : Config} {error : RunError}
    (failed : (runWith surroundings found config store).result = .error error) :
    (∃ cause, error = .document cause) ∨ ∃ cause, error = .storage cause := by
  rw [runWith] at failed
  dsimp only at failed
  split at failed
  · cases failed
    exact .inl ⟨_, rfl⟩
  · split at failed
    · cases failed
      exact .inr ⟨_, rfl⟩
    · cases failed

theorem sources_eq_error {batch : Batch} {error : StorageError} :
    batch.sources store = .error error ↔ store.list batch.inputDirectory = .error error := by
  rw [Batch.sources]
  split <;> simp_all

theorem Refuses.place {result : Except RunError Nat}
    (refused : Refuses surroundings arguments store result) :
    (Arguments.parse? arguments = none ∧ result = .ok 1) ∨
    ∃ found, Arguments.parse? arguments = some found ∧
      ((∃ error, settled surroundings found store = .error error ∧ result = .error error) ∨
      ∃ config error, settled surroundings found store = .ok config ∧
        (batchOf surroundings found config).sources store = .error error ∧
        result = .error (.document (.storage error))) := by
  cases refused with
  | usage unread => exact .inl ⟨unread, rfl⟩
  | @absent found requested read asked named absent =>
      refine .inr ⟨found, read, .inl ⟨_, ?_, rfl⟩⟩
      rw [settled, readConfig, absent, asked]
      cases requested with
      | nil => exact absurd rfl named
      | cons c requested => rfl
  | @unreadable found error read present unreadable =>
      refine .inr ⟨found, read, .inl ⟨_, ?_, rfl⟩⟩
      obtain ⟨entry, present⟩ := Option.isSome_iff_exists.mp present
      rw [settled, readConfig, present, unreadable]
      rfl
  | @malformed found bytes read held malformed =>
      refine .inr ⟨found, read, .inl ⟨_, ?_, rfl⟩⟩
      rw [settled, readConfig, FileStore.read_eq_ok.mp held, held]
      simp only [malformed]
      rfl
  | @invalid found bytes data error read held formed invalid =>
      refine .inr ⟨found, read, .inl ⟨_, ?_, rfl⟩⟩
      rw [settled, readConfig, FileStore.read_eq_ok.mp held, held]
      simp only [formed, invalid]
      rfl
  | @language found loaded language error read loads asked refused =>
      refine .inr ⟨found, read, .inl ⟨_, ?_, rfl⟩⟩
      rw [settled, loads, asked, Except.bind, effectiveConfig, refused]
      rfl
  | @unlisted found config error read settles unlisted =>
      exact .inr ⟨found, read, .inr ⟨config, error, settles, sources_eq_error.mpr unlisted, rfl⟩⟩

/-- A run with a settled configuration and a directory that can be listed passes all checks. -/
theorem passes_of_listed {config : Config} {names : List Text}
    (read : Arguments.parse? arguments = some found)
    (settles : settled surroundings found store = .ok config)
    (listed : (batchOf surroundings found config).sources store = .ok names)
    (result : Except RunError Nat) : ¬Refuses surroundings arguments store result := by
  intro refused
  rcases refused.place with ⟨unread, -⟩ |
    ⟨found', read', ⟨error, unsettled, -⟩ | ⟨config', error, settles', unlisted, -⟩⟩
  · cases unread.symm.trans read
  · cases read'.symm.trans read
    cases unsettled.symm.trans settles
  · cases read'.symm.trans read
    cases settles'.symm.trans settles
    cases unlisted.symm.trans listed

theorem Refuses.outcome {result : Except RunError Nat}
    (refused : Refuses surroundings arguments store result) :
    (run surroundings arguments store).result = result ∧
      (run surroundings arguments store).store = store := by
  rcases refused.place with ⟨unread, rfl⟩ |
    ⟨found, read, ⟨error, unsettled, rfl⟩ | ⟨config, error, settles, unlisted, rfl⟩⟩
  · exact run_of_usage unread
  · have ends := run_of_settled surroundings store read
    rwa [unsettled] at ends
  · obtain ⟨result, after⟩ := run_of_settled surroundings store read
    have ends : runWith surroundings found config store = ⟨.error (.document (.storage error)),
        [startLine (batchOf surroundings found config)], store⟩ := by
      rw [runWith, Batch.run, unlisted]
    rw [result, after, settles]
    simp only [Except.bind, ends, and_self]

theorem refuses_of_error {error : RunError}
    (failed : (run surroundings arguments store).result = .error error)
    (no_page : ∀ cause, error ≠ .document cause) (no_storage : ∀ cause, error ≠ .storage cause) :
    Refuses surroundings arguments store (.error error) := by
  cases read : Arguments.parse? arguments with
  | none => cases (run_of_usage read).1.symm.trans failed
  | some found =>
      rw [(run_of_settled surroundings store read).1] at failed
      rcases settled_cases surroundings store read with
        ⟨problem, unsettled, refused⟩ | ⟨loaded, config, -, settles, -, -⟩
      · rw [unsettled] at failed
        cases failed
        exact refused
      · rw [settles] at failed
        rcases run_with_error failed with ⟨cause, rfl⟩ | ⟨cause, rfl⟩
        · exact absurd rfl (no_page cause)
        · exact absurd rfl (no_storage cause)

/-- A run that is refused changes nothing, and all errors of configuration are such.
Any other run comes to an end with the manifest for the language that was asked for
and with a code that is zero just if all pages were written, or with the failure of
a page if neither the command line nor the configuration wants to go on. -/
theorem run_refused_or_ends (surroundings : Surroundings) (arguments : List Text)
    (store : FileStore) :
    (∀ result, Refuses surroundings arguments store result →
      (run surroundings arguments store).result = result ∧
        (run surroundings arguments store).store = store) ∧
    (∀ error, (run surroundings arguments store).result = .error (.config error) →
      Refuses surroundings arguments store (.error (.config error))) ∧
    (∀ path, (run surroundings arguments store).result = .error (.badJson path) →
      Refuses surroundings arguments store (.error (.badJson path))) ∧
    ((∀ result, ¬Refuses surroundings arguments store result) →
      ∃ found loaded config names, Arguments.parse? arguments = some found ∧
        (readConfig surroundings found.configPath store).1 = .ok loaded ∧
        settled surroundings found store = .ok config ∧
        (batchOf surroundings found config).sources store = .ok names ∧
        Ends found loaded (batchOf surroundings found config) names store
          (run surroundings arguments store).result (run surroundings arguments store).store) := by
  refine ⟨fun result refused => refused.outcome, ?_, ?_, ?_⟩
  · exact fun error failed => refuses_of_error failed nofun nofun
  · exact fun path failed => refuses_of_error failed nofun nofun
  · intro passes
    cases read : Arguments.parse? arguments with
    | none => exact absurd (.usage read) (passes _)
    | some found =>
        rcases settled_cases surroundings store read with
          ⟨error, -, refused⟩ | ⟨loaded, config, loads, settles, -, language⟩
        · exact absurd refused (passes _)
        · cases listed : (batchOf surroundings found config).sources store with
          | error error =>
              exact absurd (.unlisted read settles (sources_eq_error.mp listed)) (passes _)
          | ok names =>
              have ends := run_with_ends language listed
              obtain ⟨result, after⟩ :=
                run_of_settled surroundings store read
              rw [settles] at result after
              rw [result, after]
              exact ⟨found, loaded, config, names, rfl, loads, settles, listed, ends⟩

/-- The surroundings ask for a configuration, the command line for another language
and for going on, and one of two pages fails. -/
theorem run_refused_or_ends_skipping :
    let store : FileStore := [(["in".toList], .directory),
      (["in".toList, "a.Rmd".toList],
        .file (Utf8.encode "```\x7bexercise-end\x7d\n```\n".toList)),
      (["in".toList, "b.Rmd".toList], .file (Utf8.encode "# B\n".toList)),
      (["c.json".toList], .file (Utf8.encode "\x7b\"language\": \"julia\"\x7d".toList))]
    let surroundings : Surroundings := ⟨[], some "c.json".toList⟩
    let arguments := ["in".toList, "--continue-on-error".toList, "out".toList,
      "--language=r".toList]
    (∀ result, ¬Refuses surroundings arguments store result) ∧
      (run surroundings arguments store).result = .ok 1 ∧
      ∃ found loaded config names, Arguments.parse? arguments = some found ∧
        (readConfig surroundings found.configPath store).1 = .ok loaded ∧
        settled surroundings found store = .ok config ∧
        (batchOf surroundings found config).sources store = .ok names ∧
        Ends found loaded (batchOf surroundings found config) names store
          (run surroundings arguments store).result
          (run surroundings arguments store).store := by
  intro store surroundings arguments
  let found : Arguments := ⟨"in".toList, "out".toList, none, some "r".toList, true⟩
  let config : Config := { language := "r".toList }
  have read : Arguments.parse? arguments = some found := by decide +kernel
  have settles : settled surroundings found store = .ok config := by decide +kernel
  have listed : (batchOf surroundings found config).sources store =
      .ok ["a.Rmd".toList, "b.Rmd".toList] :=
    Batch.sources_of_perm (by decide) rfl (by decide +kernel) (by decide +kernel)
  have created : store.makeDirectory (batchOf surroundings found config).outputDirectory =
      .ok (store ++ [(["out".toList], .directory)]) := by decide +kernel
  have passes := passes_of_listed read settles listed
  refine ⟨passes, ?_, (run_refused_or_ends surroundings arguments store).2.2.2 passes⟩
  rw [(run_of_settled surroundings store read).1, settles]
  simp only [Except.bind, runWith, Batch.run_eq _ listed created]
  decide +kernel

end LessonBook.CommandLine
