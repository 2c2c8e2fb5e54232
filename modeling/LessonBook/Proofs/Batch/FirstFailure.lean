import LessonBook.Proofs.Batch.Separation

/-!
Stopping at the first failure. Up to there a run does what one does that goes on;
what it leaves is the store with the notebooks of the pages in front of that one.
-/

namespace LessonBook.Batch

open Text

theorem first_failure_keeps {batch : Batch} {store made middle next : FileStore}
    {before rest : List Text} {first : PageFailure} (separate : batch.IsSeparate)
    (wellFormed : store.WellFormed)
    (listed : batch.sources store = .ok (before ++ first.name :: rest))
    (created : store.makeDirectory batch.outputDirectory = .ok made)
    (writes : batch.WritesAll made before middle)
    (refused : batch.turn first.name middle = (.error first.error, next)) :
    next = middle ∧ batch.HasWritten store made before middle := by
  have makes := FileStore.makes_of_make_directory wellFormed separate.proper created
  have ready := makes.directory (List.prefix_refl batch.outputDirectory)
  have alone := converts_alone separate wellFormed listed created
    (List.sublist_append_left before _) writes
  have source : batch.IsSource store first.name :=
    (mem_sources wellFormed listed).mp (List.mem_append_right _ List.mem_cons_self)
  obtain ⟨content, page⟩ :=
    FileStore.is_file_iff.mp ((is_source_made makes first.name).mpr source).1
  rcases turn_cases separate makes.wellFormed ready page with
    ⟨error, fails⟩ | ⟨_, _, _, _, _, written⟩
  · cases refused.symm.trans (fails middle alone.alike)
    exact ⟨rfl, alone.written.of_made makes⟩
  · cases refused.symm.trans (written middle alone.alike)

/-- If going on meets no failure, stopping does the same. Otherwise stopping ends with
the failure that going on records first, and leaves the store in which exactly the
pages in front of that one have been written. -/
theorem run_abort_is_first_part {batch : Batch} {store : FileStore} (separate : batch.IsSeparate)
    (wellFormed : store.WellFormed) :
    (∀ error after, (batch.withPolicy .continue).run store = (.error error, after) →
      (batch.withPolicy .abort).run store = (.error error, after)) ∧
    ∀ result after, (batch.withPolicy .continue).run store = (.ok result, after) →
      (result.failures = [] → (batch.withPolicy .abort).run store = (.ok result, after)) ∧
      ∀ first others, result.failures = first :: others → ∃ made before left,
        store.makeDirectory batch.outputDirectory = .ok made ∧
          (∀ name, name ∈ before ↔
            batch.IsSource store name ∧ unitsLess name first.name = true) ∧
          batch.HasWritten store made before left ∧
          (batch.withPolicy .abort).run store = (.error first.error, left) := by
  rcases run_cases batch store with ⟨problem, ends⟩ | ⟨names, made, listed, created⟩
  · refine ⟨fun error after ran => ?_, fun result after ran => ?_⟩
    · rw [← ran, ends, ends]
    · cases (ends .continue).symm.trans ran
  · obtain ⟨converted, failures, last, converts⟩ := converts_exists batch made names
    have goesOn := run_eq (batch.withPolicy .continue) listed created
    have stops := run_eq (batch.withPolicy .abort) listed created
    obtain ⟨warnings, ran⟩ := (converts.with_policy .continue).run_on rfl {}
    rw [ran] at goesOn
    refine ⟨fun error after failed => ?_, fun result after done => ?_⟩
    · cases goesOn.symm.trans failed
    · cases goesOn.symm.trans done
      refine ⟨fun none_failed => ?_, fun first others failed => ?_⟩
      · obtain rfl : failures = [] := none_failed
        have writes := converts.all_written
        rw [stops, writes.any_policy, ← writes.any_policy .continue, ran]
      · obtain rfl : failures = first :: others := failed
        obtain ⟨before, rest, middle, next, rfl, writes, refused⟩ := converts.first_failure
        obtain ⟨rfl, written⟩ :=
          first_failure_keeps separate wellFormed listed created writes refused
        have ordered := sources_ordered wellFormed listed
        refine ⟨made, before, next, created, fun name => ?_, written, ?_⟩
        · rw [mem_front_of_ascending ordered, mem_sources wellFormed listed]
        · rw [stops]
          exact WritesAll.stops (writes.with_policy .abort) rfl refused {} rest

/-- The first failure is one of writing, between a page in front of it and one that
fails behind it. -/
theorem run_abort_is_first_part_blocked :
    let page : FileEntry := .file (Utf8.encode "# A\n".toList)
    let store : FileStore := [(["in".toList], .directory), (["out".toList], .directory),
      (["in".toList, "b.Rmd".toList], page), (["in".toList, "a.Rmd".toList], page),
      (["in".toList, "c.Rmd".toList],
        .file (Utf8.encode "```\x7bexercise-end\x7d\n```\n".toList)),
      (["out".toList, "b.ipynb".toList], .directory)]
    let batch : Batch := { inputDirectory := ["in".toList], outputDirectory := ["out".toList] }
    batch.IsSeparate ∧ store.WellFormed ∧ ∃ result after first others,
      (batch.withPolicy .continue).run store = (.ok result, after) ∧
        result.failures = first :: others ∧ first.name = "b.Rmd".toList ∧ ∃ made before left,
          store.makeDirectory batch.outputDirectory = .ok made ∧
            (∀ name, name ∈ before ↔
              batch.IsSource store name ∧ unitsLess name first.name = true) ∧
            batch.HasWritten store made before left ∧
            (batch.withPolicy .abort).run store = (.error first.error, left) := by
  intro page store batch
  have separate : batch.IsSeparate := ⟨by decide, by decide, by decide, by decide⟩
  have wellFormed : store.WellFormed := by decide
  have listed : batch.sources store = .ok ["a.Rmd".toList, "b.Rmd".toList, "c.Rmd".toList] :=
    sources_of_perm wellFormed rfl (by decide +kernel) (by decide +kernel)
  have created : store.makeDirectory batch.outputDirectory = .ok store := rfl
  have ran : (batch.withPolicy .continue).run store = _ := run_eq _ listed created
  have fails : (((batch.withPolicy .continue).convertAll {} store
      ["a.Rmd".toList, "b.Rmd".toList, "c.Rmd".toList]).1.toOption.bind fun result =>
        result.failures.head?.map PageFailure.name) = some "b.Rmd".toList := by decide +kernel
  rw [← ran] at fails
  rcases done : (batch.withPolicy .continue).run store with ⟨error | result, after⟩
  · rw [done] at fails
    cases fails
  · rw [done] at fails
    obtain ⟨first, begins, named⟩ := Option.map_eq_some_iff.mp fails
    obtain ⟨others, failures⟩ := List.head?_eq_some_iff.mp begins
    exact ⟨separate, wellFormed, result, after, first, others, rfl, failures, named,
      ((run_abort_is_first_part separate wellFormed).2 result after done).2 first others failures⟩

end LessonBook.Batch
