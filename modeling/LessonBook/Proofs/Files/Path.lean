import LessonBook.Files.Path

/-!
Proper paths: those whose names a directory or a file may have. Steps, and the
texts that name a path, lead from proper paths to proper ones.
-/

namespace LessonBook

open Text

namespace Text

theorem split_at_of_absent {isCut : Char → Bool} {text : Text}
    (absent : ∀ c ∈ text, isCut c = false) : splitAt isCut text = [text] := by
  induction text with
  | nil => rfl
  | cons c text induction =>
      obtain ⟨first, others⟩ := List.forall_mem_cons.mp absent
      rw [splitAt, if_neg (by simp [first]), induction others]

theorem absent_of_mem_split_at {isCut : Char → Bool} {text piece : Text}
    (member : piece ∈ splitAt isCut text) : ∀ c ∈ piece, isCut c = false := by
  induction text generalizing piece with
  | nil =>
      rw [splitAt, List.mem_singleton] at member
      subst member
      exact List.forall_mem_nil _
  | cons c text induction =>
      rw [splitAt] at member
      split at member
      · rcases List.mem_cons.mp member with rfl | member
        · exact List.forall_mem_nil _
        · exact induction member
      · rename_i kept
        have plain : isCut c = false := by simpa using kept
        cases pieces : splitAt isCut text with
        | nil =>
            rw [pieces, List.mem_singleton] at member
            subst member
            simpa using plain
        | cons first others =>
            rw [pieces] at member induction
            rcases List.mem_cons.mp member with rfl | member
            · exact List.forall_mem_cons.mpr ⟨plain, induction List.mem_cons_self⟩
            · exact induction (List.mem_cons_of_mem _ member)

end Text

namespace FilePath

structure IsName (name : Text) : Prop where
  occupied : name ≠ []
  notHere : name ≠ ['.']
  notAbove : name ≠ ['.', '.']
  unbroken : '/' ∉ name

instance (name : Text) : Decidable (IsName name) :=
  decidable_of_iff (name ≠ [] ∧ name ≠ ['.'] ∧ name ≠ ['.', '.'] ∧ '/' ∉ name)
    ⟨fun ⟨occupied, notHere, notAbove, unbroken⟩ => ⟨occupied, notHere, notAbove, unbroken⟩,
      fun named => ⟨named.occupied, named.notHere, named.notAbove, named.unbroken⟩⟩

def IsProper (path : FilePath) : Prop :=
  ∀ name ∈ path, IsName name

instance (path : FilePath) : Decidable path.IsProper :=
  inferInstanceAs (Decidable (∀ name ∈ path, IsName name))

theorem proper_root : IsProper [] := nofun

theorem IsProper.append {path : FilePath} (proper : path.IsProper) {name : Text}
    (named : IsName name) : IsProper (path ++ [name]) := by
  intro other member
  rcases List.mem_append.mp member with member | member
  · exact proper other member
  · rwa [List.mem_singleton.mp member]

theorem IsProper.of_prefix {above path : FilePath} (proper : path.IsProper)
    (isAbove : above <+: path) : above.IsProper :=
  fun name member => proper name (isAbove.subset member)

theorem IsProper.dropLast {path : FilePath} (proper : path.IsProper) : IsProper path.dropLast :=
  proper.of_prefix path.dropLast_prefix

theorem IsProper.trimmed {path : FilePath} (proper : path.IsProper) : path.trimmed = path := by
  rw [FilePath.trimmed, if_neg]
  intro last
  exact (proper [] (List.mem_of_getLast? last)).occupied rfl

theorem IsProper.parent {path : FilePath} (proper : path.IsProper) :
    path.parent = path.dropLast := by
  rw [FilePath.parent, proper.trimmed]

theorem trimmed_append {name : Text} (occupied : name ≠ []) (path : FilePath) :
    FilePath.trimmed (path ++ [name]) = path ++ [name] := by
  rw [FilePath.trimmed, if_neg (by simpa using occupied)]

theorem parent_append {name : Text} (occupied : name ≠ []) (path : FilePath) :
    FilePath.parent (path ++ [name]) = path := by
  rw [FilePath.parent, trimmed_append occupied, List.dropLast_concat]

theorem name_append {name : Text} (occupied : name ≠ []) (path : FilePath) :
    FilePath.name (path ++ [name]) = name := by
  rw [FilePath.name, trimmed_append occupied, List.getLast?_concat, Option.getD_some]

theorem mem_ancestors {above path : FilePath} : above ∈ path.ancestors ↔ above <+: path := by
  rw [ancestors, List.mem_map]
  constructor
  · rintro ⟨count, -, rfl⟩
    exact path.take_prefix count
  · intro isAbove
    refine ⟨above.length, ?_, (List.prefix_iff_eq_take.mp isAbove).symm⟩
    rw [List.mem_range]
    exact Nat.lt_succ_of_le isAbove.length_le

/-! ### Steps -/

theorem step_cases {name : Text} (unbroken : '/' ∉ name) (path : FilePath) :
    step path name = path ∨ step path name = path.dropLast ∨
      step path name = path ++ [name] ∧ IsName name := by
  rw [step]
  split
  · exact .inl rfl
  · rename_i stays
    simp only [Bool.or_eq_true, List.isEmpty_iff, decide_eq_true_eq, not_or] at stays
    split
    · exact .inr (.inl rfl)
    · rename_i climbs
      exact .inr (.inr ⟨rfl, stays.1, stays.2, climbs, unbroken⟩)

theorem IsProper.walk {path : FilePath} (proper : path.IsProper) {names : List Text}
    (unbroken : ∀ name ∈ names, '/' ∉ name) : (path.walk names).IsProper := by
  induction names generalizing path with
  | nil => exact proper
  | cons name names induction =>
      obtain ⟨first, others⟩ := List.forall_mem_cons.mp unbroken
      have next : (path.step name).IsProper := by
        rcases step_cases first path with stays | climbs | ⟨goes, named⟩
        · rwa [stays]
        · rw [climbs]
          exact proper.dropLast
        · rw [goes]
          exact proper.append named
      exact induction next others

theorem IsProper.resolve {directory : FilePath} (proper : directory.IsProper) (text : Text) :
    (directory.resolve text).IsProper := by
  have unbroken : ∀ name ∈ splitAt (· == '/') text, '/' ∉ name := by
    intro name member slash
    exact absurd (absent_of_mem_split_at member '/' slash) (by simp)
  rw [FilePath.resolve]
  split
  · exact proper_root.walk unbroken
  · exact proper.walk unbroken

theorem join_of_unbroken {text : Text} (unbroken : '/' ∉ text) (directory : FilePath) :
    directory.join text = directory.step text := by
  have whole : splitAt (· == '/') text = [text] := by
    apply split_at_of_absent
    intro c member
    rw [beq_eq_false_iff_ne]
    rintro rfl
    exact unbroken member
  have open_ended : text.getLast? ≠ some '/' := fun last => unbroken (List.mem_of_getLast? last)
  rw [join, whole]
  simp [walk, open_ended]

end FilePath

end LessonBook
