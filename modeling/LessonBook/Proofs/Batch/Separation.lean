import LessonBook.Proofs.Batch.Turn
import LessonBook.Proofs.Files.Listing

/-!
Batches that write to another directory than they read from. There each page has
a place of its own, no turn changes what another one reads, and so every page
comes to what it would come to alone.
-/

namespace LessonBook.Batch

open Text FilePath

variable {batch : Batch} {store made last : FileStore}

/-- What a batch writes is apart from what it reads, and pages have different places. -/
structure IsSeparate (batch : Batch) : Prop where
  proper : batch.outputDirectory.IsProper
  apart : batch.outputDirectory ≠ batch.inputDirectory
  suffixed : batch.inputSuffix ≠ []
  unbroken : '/' ∉ batch.outputSuffix

def IsSource (batch : Batch) (store : FileStore) (name : Text) : Prop :=
  store.isFile (batch.inputDirectory ++ [name]) = true ∧ endsWith batch.inputSuffix name = true

def outputName (batch : Batch) (name : Text) : Text :=
  stem batch.inputSuffix name ++ batch.outputSuffix

/-! ### Places -/

theorem stem_append {suffix : Text} (suffixed : suffix ≠ []) (front : Text) :
    stem suffix (front ++ suffix) = front := by
  rw [stem, if_neg (by simpa using suffixed), List.length_append, Nat.add_sub_cancel,
    List.take_left]

theorem output_name_inj (separate : batch.IsSeparate) {name other : Text}
    (ends : endsWith batch.inputSuffix name = true)
    (ends' : endsWith batch.inputSuffix other = true)
    (same : batch.outputName name = batch.outputName other) : name = other := by
  rw [endsWith, List.isSuffixOf_iff_suffix] at ends ends'
  obtain ⟨front, rfl⟩ := ends
  obtain ⟨front', rfl⟩ := ends'
  rw [outputName, outputName, stem_append separate.suffixed, stem_append separate.suffixed] at same
  rw [List.append_cancel_right same]

/-- The notebook of a page stands in the output directory, unless its name is a
step to a directory that is there already. -/
theorem output_path_cases (separate : batch.IsSeparate) (wellFormed : store.WellFormed)
    (ready : store.find? batch.outputDirectory = some .directory) {name : Text}
    (unbroken : '/' ∉ name) :
    store.find? (batch.outputPath name) = some .directory ∨
      batch.outputPath name = batch.outputDirectory ++ [batch.outputName name] ∧
        IsName (batch.outputName name) := by
  have single : '/' ∉ batch.outputName name := by
    rw [outputName, List.mem_append, stem]
    refine not_or.mpr ⟨?_, separate.unbroken⟩
    split
    · exact nofun
    · exact fun slash => unbroken (List.mem_of_mem_take slash)
  have path : batch.outputPath name = batch.outputDirectory.step (batch.outputName name) :=
    join_of_unbroken single batch.outputDirectory
  rcases step_cases single batch.outputDirectory with stays | climbs | ⟨goes, named⟩
  · exact .inl (by rw [path, stays, ready])
  · exact .inl (by rw [path, climbs, wellFormed.enclosed ready])
  · exact .inr ⟨path.trans goes, named⟩

/-! ### Turns that do not meet -/

/-- The store has the pages and the directories that the other one has. -/
structure Alike (batch : Batch) (made store : FileStore) : Prop where
  wellFormed : store.WellFormed
  pages : ∀ name, store.find? (batch.inputDirectory ++ [name]) =
    made.find? (batch.inputDirectory ++ [name])
  directories : ∀ path, store.find? path = some .directory ↔ made.find? path = some .directory

theorem Alike.refl (wellFormed : store.WellFormed) : batch.Alike store store :=
  ⟨wellFormed, fun _ => rfl, fun _ => Iff.rfl⟩

theorem Alike.put (separate : batch.IsSeparate) (alike : batch.Alike made store)
    (ready : made.find? batch.outputDirectory = some .directory) {name : Text} (named : IsName name)
    (free : made.find? (batch.outputDirectory ++ [name]) ≠ some .directory)
    (content : List Utf8.Byte) :
    batch.Alike made (store.put (batch.outputDirectory ++ [name]) (.file content)) := by
  refine ⟨?_, ?_, ?_⟩
  · apply alike.wellFormed.put (separate.proper.append named)
    · rw [List.dropLast_concat]
      exact (alike.directories _).mpr ready
    · exact mt (alike.directories _).mp free
  · intro page
    rw [FileStore.find_put, if_neg, alike.pages]
    intro same
    exact separate.apart (List.append_inj_left' same rfl)
  · intro path
    rw [FileStore.find_put]
    split
    · rename_i same
      subst same
      exact iff_of_false nofun free
    · exact alike.directories path

/-- What a page comes to alone is what it comes to among others: it fails and
changes nothing, or its notebook is written to its own place. -/
theorem turn_cases (separate : batch.IsSeparate) (wellFormed : made.WellFormed)
    (ready : made.find? batch.outputDirectory = some .directory) {name : Text}
    {content : List Utf8.Byte}
    (page : made.find? (batch.inputDirectory ++ [name]) = some (.file content)) :
    (∃ error, ∀ store, batch.Alike made store → batch.turn name store = (.error error, store)) ∨
      ∃ text, batch.fileText (Utf8.decode content) = .ok text ∧ IsName (batch.outputName name) ∧
        batch.outputPath name = batch.outputDirectory ++ [batch.outputName name] ∧
        made.find? (batch.outputDirectory ++ [batch.outputName name]) ≠ some .directory ∧
        ∀ store, batch.Alike made store → batch.turn name store = (.ok (batch.outputPath name),
          store.put (batch.outputDirectory ++ [batch.outputName name])
            (.file (Utf8.encode text))) := by
  have unbroken : '/' ∉ name := (wellFormed.proper page name (by simp)).unbroken
  have reads (store : FileStore) (alike : batch.Alike made store) :
      batch.turn name store = batch.convert name (Utf8.decode content) store := by
    have read : store.read (batch.inputDirectory ++ [name]) = .ok content := by
      rw [FileStore.read, alike.pages, page]
    rw [turn, read]
  cases converted : batch.fileText (Utf8.decode content) with
  | error error =>
      refine .inl ⟨.page error, fun store alike => ?_⟩
      rw [reads store alike, convert, converted]
  | ok text =>
      by_cases taken : made.find? (batch.outputPath name) = some .directory
      · refine .inl ⟨.storage ⟨.isDirectory, "open", some (batch.outputPath name)⟩, ?_⟩
        intro store alike
        rw [reads store alike, convert, converted]
        simp only [FileStore.output_at_directory alike.wellFormed
          ((alike.directories _).mpr taken)]
      · obtain ⟨path, named⟩ :=
          (output_path_cases separate wellFormed ready unbroken).resolve_left taken
        rw [path] at taken
        refine .inr ⟨text, rfl, named, path, taken, ?_⟩
        intro store alike
        have inside := (alike.directories _).mpr ready
        have free := mt (alike.directories _).mp taken
        rw [reads store alike, convert, converted]
        simp only [path, FileStore.output_in_directory named.occupied inside free]

/-! ### Whole runs -/

/-- The store holds the notebooks of these pages of the first store, each in its
place, and is otherwise the second one. -/
structure HasWritten (batch : Batch) (store made : FileStore) (names : List Text)
    (after : FileStore) : Prop where
  held : ∀ name ∈ names, ∃ content text,
    store.find? (batch.inputDirectory ++ [name]) = some (.file content) ∧
      batch.fileText (Utf8.decode content) = .ok text ∧
      after.find? (batch.outputDirectory ++ [batch.outputName name]) =
        some (.file (Utf8.encode text))
  kept : ∀ path, (∀ name ∈ names, path ≠ batch.outputDirectory ++ [batch.outputName name]) →
    after.find? path = made.find? path

/-- What the turns of some pages come to, when each comes to what it would alone. -/
structure RunsAlone (batch : Batch) (made start : FileStore) (converted : List Text)
    (failures : List PageFailure) (last : FileStore) : Prop where
  alike : batch.Alike made last
  written : batch.HasWritten made start converted last
  paths : converted.map batch.outputPath =
    converted.map fun name => batch.outputDirectory ++ [batch.outputName name]
  failed : ∀ failure ∈ failures, batch.turn failure.name made = (.error failure.error, made)

theorem Converts.runsAlone (separate : batch.IsSeparate) (wellFormed : made.WellFormed)
    (ready : made.find? batch.outputDirectory = some .directory) {start : FileStore}
    (alike : batch.Alike made start) {names converted : List Text} {failures : List PageFailure}
    (sources : ∀ name ∈ names, batch.IsSource made name) (distinct : names.Nodup)
    (converts : Converts batch start names converted failures last) :
    batch.RunsAlone made start converted failures last := by
  induction converts with
  | nil start => exact ⟨alike, ⟨nofun, fun _ _ => rfl⟩, rfl, nofun⟩
  | @written start next last name names converted failures path done others induction =>
      obtain ⟨⟨isHeld, ends⟩, sources⟩ := List.forall_mem_cons.mp sources
      obtain ⟨fresh, distinct⟩ := List.nodup_cons.mp distinct
      obtain ⟨content, page⟩ := FileStore.is_file_iff.mp isHeld
      rcases turn_cases separate wellFormed ready page with
        ⟨error, fails⟩ | ⟨text, converts, named, place, free, writes⟩
      · cases done.symm.trans (fails start alike)
      · cases done.symm.trans (writes start alike)
        have rest := induction (alike.put separate ready named free _) sources distinct
        -- The place of this page is that of no other one, so its notebook stays.
        have own : ∀ other ∈ converted, batch.outputDirectory ++ [batch.outputName name] ≠
            batch.outputDirectory ++ [batch.outputName other] := by
          intro other member same
          have source := others.converted_sublist.subset member
          have equal := output_name_inj separate ends (sources other source).2
            (List.singleton_inj.mp (List.append_cancel_left same))
          exact fresh (equal ▸ source)
        refine ⟨rest.alike, ⟨?_, ?_⟩, ?_, rest.failed⟩
        · refine List.forall_mem_cons.mpr ⟨⟨content, text, page, converts, ?_⟩, rest.written.held⟩
          rw [rest.written.kept _ own, FileStore.find_put, if_pos rfl]
        · intro path elsewhere
          obtain ⟨here, elsewhere⟩ := List.forall_mem_cons.mp elsewhere
          rw [rest.written.kept path elsewhere, FileStore.find_put, if_neg (Ne.symm here)]
        · rw [List.map_cons, List.map_cons, rest.paths, place]
  | @failed start next last name names converted failures error refused others induction =>
      obtain ⟨⟨isHeld, -⟩, sources⟩ := List.forall_mem_cons.mp sources
      obtain ⟨content, page⟩ := FileStore.is_file_iff.mp isHeld
      rcases turn_cases separate wellFormed ready page with
        ⟨error', fails⟩ | ⟨_, _, _, _, _, writes⟩
      · cases refused.symm.trans (fails start alike)
        have rest := induction alike sources (List.nodup_cons.mp distinct).2
        exact ⟨rest.alike, rest.written, rest.paths,
          List.forall_mem_cons.mpr ⟨fails made (.refl wellFormed), rest.failed⟩⟩
      · cases refused.symm.trans (writes start alike)

/-! ### The pages of a batch -/

theorem sources_eq_ok_iff {names : List Text} : batch.sources store = .ok names ↔
    ∃ listed, store.list batch.inputDirectory = .ok listed ∧
      names = listed.filter (endsWith batch.inputSuffix) := by
  rw [sources]
  cases store.list batch.inputDirectory with
  | error error => simp
  | ok listed => simp [eq_comm]

theorem mem_sources (wellFormed : store.WellFormed) {names : List Text}
    (listed : batch.sources store = .ok names) {name : Text} :
    name ∈ names ↔ batch.IsSource store name := by
  obtain ⟨all, accepted, rfl⟩ := sources_eq_ok_iff.mp listed
  obtain ⟨-, rfl⟩ := FileStore.list_eq_ok_iff.mp accepted
  rw [List.mem_filter, FileStore.mem_file_names wellFormed, IsSource]

theorem sources_ordered (wellFormed : store.WellFormed) {names : List Text}
    (listed : batch.sources store = .ok names) : names.Pairwise (unitsLess · · = true) := by
  obtain ⟨all, accepted, rfl⟩ := sources_eq_ok_iff.mp listed
  obtain ⟨-, rfl⟩ := FileStore.list_eq_ok_iff.mp accepted
  exact (FileStore.file_names_ordered wellFormed _).filter _

/-- The pages are given by their names and their order. -/
theorem sources_of_perm (wellFormed : store.WellFormed) {names : List Text}
    (found : store.find? batch.inputDirectory = some .directory)
    (same : names.Perm ((store.filterMap fun entry =>
      store.listedName? batch.inputDirectory entry.1).filter (endsWith batch.inputSuffix)))
    (ascending : names.Pairwise (unitsLess · · = true)) : batch.sources store = .ok names := by
  refine sources_eq_ok_iff.mpr ⟨_, FileStore.list_eq_ok_iff.mpr ⟨found, rfl⟩, ?_⟩
  refine eq_of_perm_of_ascending ?_ ascending
    ((FileStore.file_names_ordered wellFormed batch.inputDirectory).filter _)
  exact same.trans ((List.mergeSort_perm _ _).symm.filter _)

theorem is_source_made (makes : FileStore.Makes store batch.outputDirectory made) (name : Text) :
    batch.IsSource made name ↔ batch.IsSource store name := by
  simp only [IsSource, FileStore.is_file_iff, makes.find_file_iff]

theorem HasWritten.of_made (makes : FileStore.Makes store batch.outputDirectory made)
    {start : FileStore} {names : List Text} (written : batch.HasWritten made start names last) :
    batch.HasWritten store start names last := by
  refine ⟨?_, written.kept⟩
  intro name member
  obtain ⟨content, text, page, converted, held⟩ := written.held name member
  exact ⟨content, text, (makes.find_file_iff _ _).mp page, converted, held⟩

theorem converts_alone (separate : batch.IsSeparate) (wellFormed : store.WellFormed)
    {names listed converted : List Text} {failures : List PageFailure}
    (accepted : batch.sources store = .ok listed)
    (created : store.makeDirectory batch.outputDirectory = .ok made)
    (some_of : names.Sublist listed)
    (converts : Converts batch made names converted failures last) :
    batch.RunsAlone made made converted failures last := by
  have makes := FileStore.makes_of_make_directory wellFormed separate.proper created
  have ready := makes.directory (List.prefix_refl batch.outputDirectory)
  refine converts.runsAlone separate makes.wellFormed ready (.refl makes.wellFormed) ?_ ?_
  · intro name member
    exact (is_source_made makes name).mpr ((mem_sources wellFormed accepted).mp
      (some_of.subset member))
  · exact (nodup_of_ascending (sources_ordered wellFormed accepted)).sublist some_of

end LessonBook.Batch
