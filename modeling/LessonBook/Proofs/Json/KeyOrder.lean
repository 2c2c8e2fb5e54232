import Mathlib.Data.List.Perm.Basic
import LessonBook.Record

/-!
The order of keys. Writing puts the entries of a record in another order, and
neither loses nor changes one of them.
-/

namespace LessonBook.Record

variable {Value Other : Type}

/-! ### The entries of a record -/

theorem find_none_iff {key : Text} {record : Record Value} :
    find? key record = none ↔ key ∉ keys record := by
  induction record with
  | nil => simp [find?, keys]
  | cons entry record induction =>
      obtain ⟨name, value⟩ := entry
      simp only [keys, List.map_cons, List.mem_cons, not_or] at *
      rw [find?]
      split
      · rename_i same
        simp [same]
      · rename_i other
        rw [induction]
        exact ⟨fun absent => ⟨Ne.symm other, absent⟩, And.right⟩

theorem erase_absent {key : Text} {record : Record Value} (absent : find? key record = none) :
    erase key record = record := by
  rw [find_none_iff] at absent
  rw [erase, List.filter_eq_self]
  intro entry member
  rw [decide_eq_true_eq]
  rintro rfl
  exact absent (List.mem_map_of_mem member)

theorem find_eq_some_iff {key : Text} {value : Value} {record : Record Value}
    (distinct : (keys record).Nodup) : find? key record = some value ↔ (key, value) ∈ record := by
  induction record with
  | nil => simp [find?]
  | cons entry record induction =>
      obtain ⟨name, held⟩ := entry
      obtain ⟨fresh, distinct⟩ := List.nodup_cons.mp distinct
      rw [find?, List.mem_cons]
      split
      · rename_i same
        subst same
        have absent : (name, value) ∉ record := fun member =>
          fresh (List.mem_map.mpr ⟨_, member, rfl⟩)
        simp [absent, eq_comm]
      · rename_i other
        rw [induction distinct]
        simp [Ne.symm other]

/-- The same keys in the same order, with related values. -/
inductive Entrywise (like : Value → Other → Prop) : Record Value → Record Other → Prop
  | nil : Entrywise like [] []
  | cons (key : Text) {value : Value} {other : Other} {entries : Record Value}
      {others : Record Other} (first : like value other) (each : Entrywise like entries others) :
      Entrywise like ((key, value) :: entries) ((key, other) :: others)

theorem Entrywise.keys_eq {like : Value → Other → Prop} {entries : Record Value}
    {others : Record Other} (each : Entrywise like entries others) : keys others = keys entries := by
  induction each with
  | nil => rfl
  | cons key first each induction => exact congrArg (key :: ·) induction

theorem Entrywise.find {like : Value → Other → Prop} {entries : Record Value}
    {others : Record Other} (each : Entrywise like entries others) {key : Text} {value : Value}
    (found : find? key entries = some value) :
    ∃ other, find? key others = some other ∧ like value other := by
  induction each with
  | nil => cases found
  | cons name first each induction =>
      rw [find?] at found ⊢
      split at found
      · cases found
        rename_i same
        exact ⟨_, if_pos same, first⟩
      · rename_i different
        rw [if_neg different]
        exact induction found

theorem put_fresh {key : Text} {record : Record Value} (fresh : key ∉ keys record) (value : Value) :
    put key value record = record ++ [(key, value)] := by
  induction record with
  | nil => rfl
  | cons entry record induction =>
      obtain ⟨name, held⟩ := entry
      simp only [keys, List.map_cons, List.mem_cons, not_or] at fresh
      rw [put, if_neg (Ne.symm fresh.1), induction fresh.2]
      rfl

/-! ### Entries in key order -/

/-- The entries with array indices, in the order of these, behind `sorted`. -/
def indexed (sorted : List (Nat × (Text × Value))) (record : Record Value) :
    List (Nat × (Text × Value)) :=
  record.foldl (fun sorted entry =>
    match indexOf? entry.1 with
    | some index => insertByIndex index entry sorted
    | none => sorted) sorted

theorem in_key_order_eq (record : Record Value) :
    inKeyOrder record =
      (indexed [] record).map Prod.snd ++ record.filter fun entry => (indexOf? entry.1).isNone :=
  rfl

theorem indexed_cons_none {entry : Text × Value} (found : indexOf? entry.1 = none)
    (sorted : List (Nat × (Text × Value))) (record : Record Value) :
    indexed sorted (entry :: record) = indexed sorted record := by
  rw [indexed, List.foldl_cons, found]
  rfl

theorem indexed_cons_some {entry : Text × Value} {index : Nat}
    (found : indexOf? entry.1 = some index) (sorted : List (Nat × (Text × Value)))
    (record : Record Value) :
    indexed sorted (entry :: record) = indexed (insertByIndex index entry sorted) record := by
  rw [indexed, List.foldl_cons, found]
  rfl

theorem insert_by_index_perm (index : Nat) (entry : Text × Value)
    (entries : List (Nat × (Text × Value))) :
    (insertByIndex index entry entries).Perm ((index, entry) :: entries) := by
  induction entries with
  | nil => exact .refl _
  | cons held entries induction =>
      obtain ⟨other, held⟩ := held
      rw [insertByIndex]
      split
      · exact .refl _
      · exact (induction.cons _).trans (.swap _ _ _)

theorem indexed_perm (sorted : List (Nat × (Text × Value))) (record : Record Value) :
    ((indexed sorted record).map Prod.snd).Perm
      (sorted.map Prod.snd ++ record.filter fun entry => !(indexOf? entry.1).isNone) := by
  induction record generalizing sorted with
  | nil => simp [indexed]
  | cons entry record induction =>
      cases found : indexOf? entry.1 with
      | none =>
          rw [indexed_cons_none found]
          simpa [found] using induction sorted
      | some index =>
          rw [indexed_cons_some found]
          have inserted := ((insert_by_index_perm index entry sorted).map Prod.snd).append_right
            (record.filter fun entry => !(indexOf? entry.1).isNone)
          refine (induction _).trans (inserted.trans ?_)
          simpa [found] using List.perm_middle.symm

theorem in_key_order_perm (record : Record Value) : (inKeyOrder record).Perm record := by
  have front := (indexed_perm [] record).append_right
    (record.filter fun entry => (indexOf? entry.1).isNone)
  rw [in_key_order_eq]
  exact front.trans (List.perm_append_comm.trans (List.filter_append_perm _ record))

section

variable (change : Text × Value → Other)

def changed (entry : Text × Value) : Text × Other :=
  (entry.1, change entry)

theorem insert_by_index_map (index : Nat) (entry : Text × Value)
    (entries : List (Nat × (Text × Value))) :
    insertByIndex index (changed change entry) (entries.map (Prod.map id (changed change))) =
      (insertByIndex index entry entries).map (Prod.map id (changed change)) := by
  induction entries with
  | nil => rfl
  | cons held entries induction =>
      obtain ⟨other, held⟩ := held
      rw [List.map_cons, insertByIndex, Prod.map_apply, insertByIndex, id]
      split
      · rfl
      · rw [List.map_cons, induction]
        rfl

theorem indexed_map (sorted : List (Nat × (Text × Value))) (record : Record Value) :
    indexed (sorted.map (Prod.map id (changed change))) (record.map (changed change)) =
      (indexed sorted record).map (Prod.map id (changed change)) := by
  induction record generalizing sorted with
  | nil => rfl
  | cons entry record induction =>
      rw [List.map_cons]
      cases found : indexOf? entry.1 with
      | none => rw [indexed_cons_none found, indexed_cons_none (by exact found), induction]
      | some index =>
          rw [indexed_cons_some found, indexed_cons_some (by exact found), insert_by_index_map,
            induction]

theorem in_key_order_map (record : Record Value) :
    inKeyOrder (record.map (changed change)) = (inKeyOrder record).map (changed change) := by
  rw [in_key_order_eq, in_key_order_eq, List.map_append, List.filter_map]
  have front := indexed_map change [] record
  rw [List.map_nil] at front
  rw [front, List.map_map, List.map_map]
  rfl

end

end LessonBook.Record
