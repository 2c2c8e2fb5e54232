import LessonBook.Proofs.Batch.Separation

/-!
Going on after failures. A batch that is separate from its pages converts every
one of them on its own: each is either written or fails, and what it comes to
depends on nothing but its own content and what stands at its own place.
-/

namespace LessonBook.Batch

open Text

/-- What a run that goes on comes to: every page of the store counts once, in the
order of names, as written or as failed, and only what is written changes. -/
structure Completes (batch : Batch) (store made : FileStore) (converted : List Text)
    (result : BatchResult) (after : FileStore) : Prop where
  paths : result.written =
    converted.map fun name => batch.outputDirectory ++ [batch.outputName name]
  accounted : ∀ name, batch.IsSource store name ↔
    name ∈ converted ++ result.failures.map PageFailure.name
  once : (converted ++ result.failures.map PageFailure.name).Nodup
  written_ordered : converted.Pairwise (unitsLess · · = true)
  failures_ordered : (result.failures.map PageFailure.name).Pairwise (unitsLess · · = true)
  distinct_paths : result.written.Nodup
  written : batch.HasWritten store made converted after
  failed_alone : ∀ failure ∈ result.failures,
    batch.turn failure.name made = (.error failure.error, made)
  files_kept : ∀ path ∉ result.written, ∀ content,
    after.find? path = some (.file content) ↔ store.find? path = some (.file content)

theorem RunsAlone.completes {batch : Batch} {store made last : FileStore}
    {names converted : List Text} {failures : List PageFailure} {warnings : List Text}
    (separate : batch.IsSeparate) (wellFormed : store.WellFormed)
    (listed : batch.sources store = .ok names)
    (makes : FileStore.Makes store batch.outputDirectory made)
    (converts : Converts batch made names converted failures last)
    (alone : batch.RunsAlone made made converted failures last) :
    batch.Completes store made converted ⟨converted.map batch.outputPath, failures, warnings⟩
      last := by
  have ordered := sources_ordered wellFormed listed
  have distinct := nodup_of_ascending ordered
  have sources : ∀ name ∈ converted, batch.IsSource store name := fun name member =>
    (mem_sources wellFormed listed).mp (converts.converted_sublist.subset member)
  refine ⟨alone.paths, ?_, converts.perm.nodup_iff.mpr distinct,
    ordered.sublist converts.converted_sublist, ordered.sublist converts.failures_sublist, ?_,
    alone.written.of_made makes, alone.failed, ?_⟩
  · intro name
    rw [← mem_sources wellFormed listed, converts.perm.mem_iff]
  · rw [alone.paths]
    refine (distinct.sublist converts.converted_sublist).map_on ?_
    intro name member other member' same
    exact output_name_inj separate (sources name member).2 (sources other member').2
      (List.singleton_inj.mp (List.append_cancel_left same))
  · intro path unwritten content
    rw [alone.paths, List.mem_map, not_exists] at unwritten
    rw [← makes.find_file_iff, alone.written.kept path]
    intro name member same
    exact unwritten name ⟨member, same.symm⟩

/-- Where the pages can be listed and the output directory made, a run that goes on
after failures returns, and converts all pages independently of each other. -/
theorem run_continue_completes {batch : Batch} {store made : FileStore} {listed : List Text}
    (separate : batch.IsSeparate) (wellFormed : store.WellFormed)
    (accepted : store.list batch.inputDirectory = .ok listed)
    (created : store.makeDirectory batch.outputDirectory = .ok made)
    (policy : batch.onError = .continue) :
    ∃ converted result after, batch.run store = (.ok result, after) ∧
      batch.Completes store made converted result after := by
  have sources : batch.sources store = .ok (listed.filter (endsWith batch.inputSuffix)) :=
    sources_eq_ok_iff.mpr ⟨listed, accepted, rfl⟩
  have makes := FileStore.makes_of_make_directory wellFormed separate.proper created
  obtain ⟨converted, failures, last, converts⟩ :=
    converts_exists batch made (listed.filter (endsWith batch.inputSuffix))
  obtain ⟨warnings, ran⟩ := converts.run_on policy {}
  have alone := converts_alone separate wellFormed sources created (List.Sublist.refl _) converts
  refine ⟨converted, _, last, (run_eq batch sources created).trans ran, ?_⟩
  simpa using alone.completes separate wellFormed sources makes converts

/-- A page that fails between two others, one of them with the name of a directory
in its place, beside files that are no pages. -/
theorem run_continue_completes_mixed :
    let page : FileEntry := .file (Utf8.encode "# A\n".toList)
    let store : FileStore := [(["in".toList], .directory), (["out".toList], .directory),
      (["in".toList, "\uFFFD.Rmd".toList], page), (["in".toList, "😀.Rmd".toList], page),
      (["in".toList, "a.Rmd".toList],
        .file (Utf8.encode "```\x7bexercise-end\x7d\n```\n".toList)),
      (["in".toList, "b.Rmd".toList], page), (["in".toList, "b.md".toList], page),
      (["in".toList, ".Rmd".toList], page), (["out".toList, "b.ipynb".toList], .directory),
      (["out".toList, "a.ipynb".toList], page), (["in".toList, "c.Rmd".toList], .directory)]
    let batch : Batch := { inputDirectory := ["in".toList], outputDirectory := ["out".toList]
                           onError := .continue }
    batch.IsSeparate ∧ store.WellFormed ∧
      store.list batch.inputDirectory = .ok [".Rmd".toList, "a.Rmd".toList, "b.Rmd".toList,
        "b.md".toList, "😀.Rmd".toList, "\uFFFD.Rmd".toList] ∧
      store.makeDirectory batch.outputDirectory = .ok store ∧
      ∃ converted result after, batch.run store = (.ok result, after) ∧
        batch.Completes store store converted result after := by
  intro page store batch
  have separate : batch.IsSeparate := ⟨by decide, by decide, by decide, by decide⟩
  have wellFormed : store.WellFormed := by decide
  have accepted : store.list batch.inputDirectory = .ok [".Rmd".toList, "a.Rmd".toList,
      "b.Rmd".toList, "b.md".toList, "😀.Rmd".toList, "\uFFFD.Rmd".toList] :=
    FileStore.list_of_perm rfl (by decide +kernel) (by decide +kernel)
  have created : store.makeDirectory batch.outputDirectory = .ok store := rfl
  exact ⟨separate, wellFormed, accepted, created,
    run_continue_completes separate wellFormed accepted created rfl⟩

end LessonBook.Batch
