import Mathlib.Data.List.Induction
import Mathlib.Data.List.Nodup
import LessonBook.Files.Store
import LessonBook.Proofs.Files.Path

/-!
Stores as a disk has them: paths are proper and stand there once, and everything
is in a directory. Every operation keeps a store so and changes only what it is
about: writing one file, making a directory those on the way to it.
-/

namespace LessonBook.FileStore

open FilePath

structure WellFormed (store : FileStore) : Prop where
  distinct : (store.map Prod.fst).Nodup
  rooted : store.find? [] = some .directory
  proper : ∀ {path entry}, store.find? path = some entry → path.IsProper
  enclosed : ∀ {path entry}, store.find? path = some entry →
    store.find? path.dropLast = some .directory

/-! ### Finding and setting entries -/

theorem mem_of_find {store : FileStore} {path : FilePath} {entry : FileEntry}
    (found : store.find? path = some entry) (below : path ≠ []) : (path, entry) ∈ store := by
  induction store with
  | nil => simp [find?, below] at found
  | cons held store induction =>
      obtain ⟨key, value⟩ := held
      rw [find?] at found
      split at found
      · rename_i same
        cases found
        exact same ▸ List.mem_cons_self
      · exact List.mem_cons_of_mem _ (induction found)

theorem find_of_mem {store : FileStore} {path : FilePath} {entry : FileEntry}
    (member : (path, entry) ∈ store) : ∃ held, store.find? path = some held := by
  induction store with
  | nil => cases member
  | cons other store induction =>
      obtain ⟨key, value⟩ := other
      rw [find?]
      split
      · exact ⟨value, rfl⟩
      · rename_i different
        refine induction ((List.mem_cons.mp member).resolve_left ?_)
        rintro same
        exact different (congrArg Prod.fst same).symm

theorem find_put (path : FilePath) (entry : FileEntry) (store : FileStore) (other : FilePath) :
    (store.put path entry).find? other =
      if path = other then some entry else store.find? other := by
  induction store with
  | nil => simp [put, find?]
  | cons held store induction =>
      obtain ⟨key, value⟩ := held
      rw [put]
      split
      · rename_i same
        subst same
        rw [find?, find?]
        split <;> rfl
      · rename_i different
        rw [find?, find?, induction]
        by_cases here : key = other
        · subst here
          rw [if_pos rfl, if_pos rfl, if_neg (Ne.symm different)]
        · rw [if_neg here, if_neg here]

theorem keys_put (path : FilePath) (entry : FileEntry) (store : FileStore) :
    (store.put path entry).map Prod.fst =
      if path ∈ store.map Prod.fst then store.map Prod.fst else store.map Prod.fst ++ [path] := by
  induction store with
  | nil => rfl
  | cons held store induction =>
      obtain ⟨key, value⟩ := held
      rw [put]
      split
      · rename_i same
        simp [same]
      · rename_i different
        have elsewhere : path ≠ key := Ne.symm different
        simp only [List.map_cons, List.mem_cons, elsewhere, false_or, induction]
        split <;> rfl

theorem distinct_put {store : FileStore} (distinct : (store.map Prod.fst).Nodup) (path : FilePath)
    (entry : FileEntry) : ((store.put path entry).map Prod.fst).Nodup := by
  rw [keys_put]
  split
  · exact distinct
  · rename_i fresh
    rw [List.nodup_append_comm]
    exact List.nodup_cons.mpr ⟨fresh, distinct⟩

theorem is_file_iff {store : FileStore} {path : FilePath} :
    store.isFile path = true ↔ ∃ content, store.find? path = some (.file content) := by
  rw [isFile]
  split
  · rename_i content found
    exact ⟨fun _ => ⟨content, found⟩, fun _ => rfl⟩
  · rename_i other
    exact ⟨nofun, fun ⟨content, found⟩ => (other content found).elim⟩

theorem read_eq_ok {store : FileStore} {path : FilePath} {content : List Text.Utf8.Byte} :
    store.read path = .ok content ↔ store.find? path = some (.file content) := by
  rw [read]
  split <;> simp_all

namespace WellFormed

variable {store : FileStore} {path : FilePath}

theorem iff_entries : store.WellFormed ↔ (store.map Prod.fst).Nodup ∧
    store.find? [] = some .directory ∧
    ∀ entry ∈ store, entry.1.IsProper ∧ store.find? entry.1.dropLast = some .directory := by
  constructor
  · intro wellFormed
    refine ⟨wellFormed.distinct, wellFormed.rooted, ?_⟩
    rintro ⟨path, entry⟩ member
    obtain ⟨held, found⟩ := find_of_mem member
    exact ⟨wellFormed.proper found, wellFormed.enclosed found⟩
  · rintro ⟨distinct, rooted, entries⟩
    have holds : ∀ {path entry}, store.find? path = some entry →
        path.IsProper ∧ store.find? path.dropLast = some .directory := by
      intro path entry found
      by_cases below : path = []
      · subst below
        exact ⟨proper_root, rooted⟩
      · exact entries _ (mem_of_find found below)
    exact ⟨distinct, rooted, fun found => (holds found).1, fun found => (holds found).2⟩

instance : Decidable store.WellFormed :=
  decidable_of_iff _ iff_entries.symm

theorem directory_above (wellFormed : store.WellFormed) {entry : FileEntry} {above : FilePath}
    (found : store.find? path = some entry) (isAbove : above <+: path) (strict : above ≠ path) :
    store.find? above = some .directory := by
  obtain ⟨rest, rfl⟩ := isAbove
  induction rest using List.reverseRecOn generalizing entry with
  | nil => exact absurd (List.append_nil above).symm strict
  | append_singleton rest name induction =>
      have inside := wellFormed.enclosed found
      rw [← List.append_assoc, List.dropLast_concat] at inside
      by_cases here : above = above ++ rest
      · rwa [← here] at inside
      · exact induction inside here

theorem put (wellFormed : store.WellFormed) (proper : path.IsProper)
    (inside : store.find? path.dropLast = some .directory)
    (free : store.find? path ≠ some .directory) (entry : FileEntry) :
    (FileStore.put path entry store).WellFormed := by
  have below : path ≠ [] := by
    rintro rfl
    exact free wellFormed.rooted
  have stays : ∀ other, store.find? other = some .directory →
      (FileStore.put path entry store).find? other = some .directory := by
    intro other isDirectory
    rw [find_put, if_neg, isDirectory]
    rintro rfl
    exact free isDirectory
  refine ⟨distinct_put wellFormed.distinct path entry, stays _ wellFormed.rooted, ?_, ?_⟩
  · intro other held found
    rw [find_put] at found
    split at found
    · rename_i same
      exact same ▸ proper
    · exact wellFormed.proper found
  · intro other held found
    rw [find_put] at found
    split at found
    · rename_i same
      exact same ▸ stays _ inside
    · exact stays _ (wellFormed.enclosed found)

end WellFormed

/-! ### Making directories -/

theorem absence_eq_missing {store : FileStore} {path : FilePath}
    (missing : store.absence path = .missing) {above : FilePath} (isAbove : above <+: path) :
    store.isFile above = false := by
  rw [absence] at missing
  split at missing
  · cases missing
  · rename_i noFile
    rw [Bool.not_eq_true, List.any_eq_false] at noFile
    simpa using noFile above (mem_ancestors.mpr isAbove)

def withDirectories (store : FileStore) (paths : List FilePath) : FileStore :=
  paths.foldl (fun made above =>
    if (made.find? above).isSome then made else made.put above .directory) store

theorem find_with_directories (store : FileStore) (paths : List FilePath) (other : FilePath) :
    (store.withDirectories paths).find? other =
      (store.find? other).or (if other ∈ paths then some .directory else none) := by
  induction paths generalizing store with
  | nil => simp [withDirectories]
  | cons above paths induction =>
      rw [withDirectories, List.foldl_cons]
      refine (induction _).trans ?_
      split
      · rename_i present
        by_cases same : other = above
        · subst same
          obtain ⟨entry, found⟩ := Option.isSome_iff_exists.mp present
          simp [found]
        · simp [same]
      · rename_i absent
        rw [Option.not_isSome_iff_eq_none] at absent
        rw [find_put]
        by_cases same : other = above
        · subst same
          simp [absent]
        · simp [same, Ne.symm same]

theorem distinct_with_directories {store : FileStore} (distinct : (store.map Prod.fst).Nodup)
    (paths : List FilePath) : ((store.withDirectories paths).map Prod.fst).Nodup := by
  induction paths generalizing store with
  | nil => exact distinct
  | cons above paths induction =>
      rw [withDirectories, List.foldl_cons]
      split
      · exact induction distinct
      · exact induction (distinct_put distinct above .directory)

/-- How the store behind making a directory goes with the one in front of it. -/
structure Makes (store : FileStore) (path : FilePath) (made : FileStore) : Prop where
  wellFormed : made.WellFormed
  no_file : ∀ {above}, above <+: path → store.isFile above = false
  directory : ∀ {above}, above <+: path → made.find? above = some .directory
  kept : ∀ {other}, ¬other <+: path → made.find? other = store.find? other

theorem Makes.of_present {store : FileStore} {path : FilePath} (wellFormed : store.WellFormed)
    (present : store.find? path = some .directory) : Makes store path store := by
  have directory : ∀ {above}, above <+: path → store.find? above = some .directory := by
    intro above isAbove
    by_cases whole : above = path
    · rwa [whole]
    · exact wellFormed.directory_above present isAbove whole
  refine ⟨wellFormed, ?_, directory, fun _ => rfl⟩
  intro above isAbove
  rw [isFile, directory isAbove]

theorem Makes.of_absent {store : FileStore} {path : FilePath} (wellFormed : store.WellFormed)
    (proper : path.IsProper) (missing : store.absence path = .missing) :
    Makes store path (store.withDirectories path.ancestors) := by
  have no_file : ∀ {above}, above <+: path → store.isFile above = false :=
    absence_eq_missing missing
  have directory : ∀ {above}, above <+: path →
      (store.withDirectories path.ancestors).find? above = some .directory := by
    intro above isAbove
    rw [find_with_directories, if_pos (mem_ancestors.mpr isAbove)]
    cases found : store.find? above with
    | none => rfl
    | some entry =>
        cases entry with
        | directory => rfl
        | file content =>
            have isHeld : store.isFile above = true := is_file_iff.mpr ⟨content, found⟩
            rw [no_file isAbove] at isHeld
            cases isHeld
  have kept : ∀ {other}, ¬other <+: path →
      (store.withDirectories path.ancestors).find? other = store.find? other := by
    intro other apart
    rw [find_with_directories, if_neg (mt mem_ancestors.mp apart), Option.or_none]
  refine ⟨⟨distinct_with_directories wellFormed.distinct _, directory List.nil_prefix, ?_, ?_⟩,
    no_file, directory, kept⟩
  · intro other entry found
    by_cases isAbove : other <+: path
    · exact proper.of_prefix isAbove
    · exact wellFormed.proper ((kept isAbove).symm.trans found)
  · intro other entry found
    by_cases isAbove : other <+: path
    · exact directory ((List.dropLast_prefix other).trans isAbove)
    · have inside := wellFormed.enclosed ((kept isAbove).symm.trans found)
      by_cases above : other.dropLast <+: path
      · exact directory above
      · rw [kept above, inside]

theorem makes_of_make_directory {store made : FileStore} {path : FilePath}
    (wellFormed : store.WellFormed) (proper : path.IsProper)
    (created : store.makeDirectory path = .ok made) : Makes store path made := by
  rw [makeDirectory] at created
  split at created
  · rename_i present
    cases created
    exact .of_present wellFormed present
  · cases created
  · split at created
    · rename_i missing
      cases created
      exact .of_absent wellFormed proper missing
    · cases created

theorem Makes.find_file_iff {store made : FileStore} {path : FilePath}
    (makes : Makes store path made) (other : FilePath) (content : List Text.Utf8.Byte) :
    made.find? other = some (.file content) ↔ store.find? other = some (.file content) := by
  by_cases isAbove : other <+: path
  · have isDirectory := makes.directory isAbove
    have noFile := makes.no_file isAbove
    constructor
    · intro found
      rw [isDirectory] at found
      cases found
    · intro found
      rw [is_file_iff.mpr ⟨content, found⟩] at noFile
      cases noFile
  · rw [makes.kept isAbove]

/-! ### Writing files -/

theorem output_at_directory {store : FileStore} (wellFormed : store.WellFormed) {path : FilePath}
    (present : store.find? path = some .directory) (content : List Text.Utf8.Byte) :
    store.output path content = (.error ⟨.isDirectory, "open", some path⟩, store) := by
  have proper := wellFormed.proper present
  have inside := wellFormed.enclosed present
  have refused : store.write path content = .error ⟨.isDirectory, "open", some path⟩ := by
    rw [write, if_neg (not_not.mpr proper.trimmed), present]
  rw [output, proper.parent, inside]
  simp only [Option.isSome_some, if_true, refused]

theorem output_in_directory {store : FileStore} {directory : FilePath} {name : Text}
    (occupied : name ≠ []) (inside : store.find? directory = some .directory)
    (free : store.find? (directory ++ [name]) ≠ some .directory) (content : List Text.Utf8.Byte) :
    store.output (directory ++ [name]) content =
      (.ok (), store.put (directory ++ [name]) (.file content)) := by
  have accepted : store.write (directory ++ [name]) content =
      .ok (store.put (directory ++ [name]) (.file content)) := by
    rw [write, if_neg (not_not.mpr (trimmed_append occupied directory)), parent_append occupied,
      inside]
    cases found : store.find? (directory ++ [name]) with
    | none => rfl
    | some entry =>
        cases entry with
        | directory => exact absurd found free
        | file old => rfl
  rw [output, parent_append occupied, inside]
  simp only [Option.isSome_some, if_true, accepted]

theorem eq_put_of_write {store written : FileStore} {path : FilePath}
    {content : List Text.Utf8.Byte} (accepted : store.write path content = .ok written) :
    written = store.put path (.file content) := by
  rw [write] at accepted
  split at accepted
  · cases accepted
  · split at accepted
    · cases accepted
    · cases accepted
      rfl
    · split at accepted
      · cases accepted
        rfl
      · cases accepted
      · cases accepted

theorem find_output {store written : FileStore} {path : FilePath} {content : List Text.Utf8.Byte}
    (accepted : store.output path content = (.ok (), written)) :
    written.find? path = some (.file content) := by
  rw [output] at accepted
  split at accepted
  · cases accepted
  · split at accepted
    · cases accepted
    · rename_i done
      cases accepted
      rw [eq_put_of_write done, find_put, if_pos rfl]

end LessonBook.FileStore
