import LessonBook.Proofs.Files.Store
import LessonBook.Proofs.Text.UnitOrder

/-!
Listings: the names of the files in a directory, each of them once and in the
order of units.
-/

namespace LessonBook.FileStore

open Text FilePath

variable {store : FileStore}

def listedName? (store : FileStore) (directory path : FilePath) : Option Text :=
  if path.parent = directory && !path.isEmpty && store.isFile path then some path.name else none

theorem listed_name_eq_some (wellFormed : store.WellFormed) {directory path : FilePath}
    {name : Text} : store.listedName? directory path = some name ↔
      path = directory ++ [name] ∧ store.isFile path = true := by
  rw [listedName?]
  constructor
  · intro listed
    split at listed
    · rename_i inside
      cases listed
      simp only [Bool.and_eq_true, decide_eq_true_eq, Bool.not_eq_true', List.isEmpty_eq_false_iff]
        at inside
      obtain ⟨⟨isParent, below⟩, isHeld⟩ := inside
      obtain ⟨content, found⟩ := is_file_iff.mp isHeld
      have proper := wellFormed.proper found
      obtain ⟨above, last, rfl⟩ := (List.eq_nil_or_concat' path).resolve_left below
      have occupied : last ≠ [] := (proper last (by simp)).occupied
      rw [parent_append occupied] at isParent
      rw [name_append occupied, isParent]
      exact ⟨rfl, isParent ▸ isHeld⟩
    · cases listed
  · rintro ⟨rfl, isHeld⟩
    obtain ⟨content, found⟩ := is_file_iff.mp isHeld
    have occupied : name ≠ [] := (wellFormed.proper found name (by simp)).occupied
    rw [parent_append occupied, name_append occupied, isHeld]
    simp

theorem mem_file_names (wellFormed : store.WellFormed) {directory : FilePath} {name : Text} :
    name ∈ store.fileNames directory ↔ store.isFile (directory ++ [name]) = true := by
  have listed : name ∈ store.fileNames directory ↔
      ∃ entry ∈ store, store.listedName? directory entry.1 = some name := by
    rw [fileNames, List.mem_mergeSort, List.mem_filterMap]
    rfl
  rw [listed]
  constructor
  · rintro ⟨entry, -, named⟩
    obtain ⟨here, isHeld⟩ := (listed_name_eq_some wellFormed).mp named
    exact here ▸ isHeld
  · intro isHeld
    obtain ⟨content, found⟩ := is_file_iff.mp isHeld
    exact ⟨_, mem_of_find found (by simp), (listed_name_eq_some wellFormed).mpr ⟨rfl, isHeld⟩⟩

theorem file_names_ordered (wellFormed : store.WellFormed) (directory : FilePath) :
    (store.fileNames directory).Pairwise (unitsLess · · = true) := by
  apply pairwise_merge_sort
  have distinct := wellFormed.distinct
  rw [List.Nodup, List.pairwise_map] at distinct
  refine distinct.filterMap _ fun first second different name named other named' same => ?_
  obtain ⟨here, -⟩ := (listed_name_eq_some wellFormed).mp named
  obtain ⟨there, -⟩ := (listed_name_eq_some wellFormed).mp named'
  exact different (here.trans (same ▸ there.symm))

theorem list_eq_ok_iff {directory : FilePath} {names : List Text} :
    store.list directory = .ok names ↔
      store.find? directory = some .directory ∧ names = store.fileNames directory := by
  rw [list]
  split
  · rename_i found
    simp [found, eq_comm]
  · rename_i content found
    simp [found]
  · rename_i absent
    simp [absent]

theorem list_of_perm {directory : FilePath} {names : List Text}
    (found : store.find? directory = some .directory)
    (same : names.Perm (store.filterMap fun entry => store.listedName? directory entry.1))
    (ascending : names.Pairwise (unitsLess · · = true)) : store.list directory = .ok names :=
  list_eq_ok_iff.mpr ⟨found, (merge_sort_eq_of_perm same ascending).symm⟩

end LessonBook.FileStore
