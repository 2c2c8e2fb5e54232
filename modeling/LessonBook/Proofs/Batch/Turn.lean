import LessonBook.Batch

/-!
Batches page by page. Every page has its turn, in which it is written or fails;
going on, a run lets all pages have theirs, and stopping, those up to the first
that fails.
-/

namespace LessonBook.Batch

open Text

variable {batch : Batch}

def turn (batch : Batch) (name : Text) (store : FileStore) :
    FileStore.Outcome ConversionError FilePath :=
  match store.read (batch.inputDirectory ++ [name]) with
  | .error error => (.error (.storage error), store)
  | .ok bytes => batch.convert name (Utf8.decode bytes) store

def warned (batch : Batch) (name : Text) (store : FileStore) (result : BatchResult) : BatchResult :=
  match store.read (batch.inputDirectory ++ [name]) with
  | .error _ => result
  | .ok bytes =>
      { result with warnings := result.warnings ++ batch.warningsFor name (Utf8.decode bytes) }

def withPolicy (batch : Batch) (policy : FailurePolicy) : Batch :=
  { batch with onError := policy }

@[simp] theorem turn_with_policy (policy : FailurePolicy) (name : Text) (store : FileStore) :
    (batch.withPolicy policy).turn name store = batch.turn name store := rfl

@[simp] theorem warned_with_policy (policy : FailurePolicy) (name : Text) (store : FileStore)
    (result : BatchResult) :
    (batch.withPolicy policy).warned name store result = batch.warned name store result := rfl

theorem written_warned (name : Text) (store : FileStore) (result : BatchResult) :
    (batch.warned name store result).written = result.written := by
  rw [warned]
  split <;> rfl

theorem failures_warned (name : Text) (store : FileStore) (result : BatchResult) :
    (batch.warned name store result).failures = result.failures := by
  rw [warned]
  split <;> rfl

theorem convert_path {name content : Text} {store next : FileStore} {path : FilePath}
    (done : batch.convert name content store = (.ok path, next)) :
    path = batch.outputPath name := by
  rw [convert] at done
  split at done
  · cases done
  · dsimp only at done
    split at done
    · cases done
    · cases done
      rfl

theorem turn_path {name : Text} {store next : FileStore} {path : FilePath}
    (done : batch.turn name store = (.ok path, next)) : path = batch.outputPath name := by
  rw [turn] at done
  split at done
  · cases done
  · exact convert_path done

/-! ### One turn of a run -/

theorem convert_all_written {name : Text} {store next : FileStore} {path : FilePath}
    (done : batch.turn name store = (.ok path, next)) (result : BatchResult) (names : List Text) :
    batch.convertAll result store (name :: names) =
      batch.convertAll (record name (.ok path) (batch.warned name store result)) next names := by
  rw [turn] at done
  rw [convertAll, warned]
  cases read : store.read (batch.inputDirectory ++ [name]) with
  | error problem =>
      rw [read] at done
      cases done
  | ok bytes =>
      rw [read] at done
      simp only [done]

theorem convert_all_skipped {name : Text} {store next : FileStore} {error : ConversionError}
    (policy : batch.onError = .continue) (failed : batch.turn name store = (.error error, next))
    (result : BatchResult) (names : List Text) :
    batch.convertAll result store (name :: names) =
      batch.convertAll (record name (.error error) (batch.warned name store result)) next
        names := by
  rw [turn] at failed
  rw [convertAll, warned]
  cases read : store.read (batch.inputDirectory ++ [name]) with
  | error problem =>
      rw [read] at failed
      cases failed
      simp only [policy]
  | ok bytes =>
      rw [read] at failed
      dsimp only at failed
      simp only [failed, policy]

theorem convert_all_stopped {name : Text} {store next : FileStore} {error : ConversionError}
    (policy : batch.onError = .abort) (failed : batch.turn name store = (.error error, next))
    (result : BatchResult) (names : List Text) :
    batch.convertAll result store (name :: names) = (.error error, next) := by
  rw [turn] at failed
  rw [convertAll]
  cases read : store.read (batch.inputDirectory ++ [name]) with
  | error problem =>
      rw [read] at failed
      cases failed
      simp only [policy]
  | ok bytes =>
      rw [read] at failed
      dsimp only at failed
      simp only [failed, policy]

/-! ### All turns -/

/-- The turns of all pages, one after the other: which of them are written, and
which fail and why. -/
inductive Converts (batch : Batch) :
    FileStore → List Text → List Text → List PageFailure → FileStore → Prop
  | nil (store : FileStore) : Converts batch store [] [] [] store
  | written {store next last : FileStore} {name : Text} {names converted : List Text}
      {failures : List PageFailure} {path : FilePath}
      (done : batch.turn name store = (.ok path, next))
      (others : Converts batch next names converted failures last) :
      Converts batch store (name :: names) (name :: converted) failures last
  | failed {store next last : FileStore} {name : Text} {names converted : List Text}
      {failures : List PageFailure} {error : ConversionError}
      (refused : batch.turn name store = (.error error, next))
      (others : Converts batch next names converted failures last) :
      Converts batch store (name :: names) converted (⟨name, error⟩ :: failures) last

def WritesAll (batch : Batch) (store : FileStore) (names : List Text) (last : FileStore) : Prop :=
  Converts batch store names names [] last

theorem Converts.with_policy {store last : FileStore} {names converted : List Text}
    {failures : List PageFailure} (converts : Converts batch store names converted failures last)
    (policy : FailurePolicy) :
    Converts (batch.withPolicy policy) store names converted failures last := by
  induction converts with
  | nil store => exact .nil store
  | written done others induction => exact .written done induction
  | failed refused others induction => exact .failed refused induction

theorem converts_exists (batch : Batch) (store : FileStore) (names : List Text) :
    ∃ converted failures last, Converts batch store names converted failures last := by
  induction names generalizing store with
  | nil => exact ⟨[], [], store, .nil store⟩
  | cons name names induction =>
      cases outcome : batch.turn name store with
      | mk result next =>
          obtain ⟨converted, failures, last, others⟩ := induction next
          cases result with
          | ok path => exact ⟨_, _, _, .written outcome others⟩
          | error error => exact ⟨_, _, _, .failed outcome others⟩

theorem Converts.unique {store last last' : FileStore} {names converted converted' : List Text}
    {failures failures' : List PageFailure}
    (first : Converts batch store names converted failures last)
    (second : Converts batch store names converted' failures' last') :
    converted = converted' ∧ failures = failures' ∧ last = last' := by
  induction first generalizing converted' failures' last' with
  | nil =>
      cases second
      exact ⟨rfl, rfl, rfl⟩
  | written done others induction =>
      cases second with
      | written done' others' =>
          cases done.symm.trans done'
          obtain ⟨rfl, rfl, rfl⟩ := induction others'
          exact ⟨rfl, rfl, rfl⟩
      | failed refused' others' => cases done.symm.trans refused'
  | failed refused others induction =>
      cases second with
      | written done' others' => cases refused.symm.trans done'
      | failed refused' others' =>
          cases refused.symm.trans refused'
          obtain ⟨rfl, rfl, rfl⟩ := induction others'
          exact ⟨rfl, rfl, rfl⟩

section

variable {store last : FileStore} {names converted : List Text} {failures : List PageFailure}

theorem Converts.converted_sublist (converts : Converts batch store names converted failures last) :
    converted.Sublist names := by
  induction converts with
  | nil => exact .slnil
  | written done others induction => exact induction.cons_cons _
  | failed refused others induction => exact induction.cons _

theorem Converts.failures_sublist (converts : Converts batch store names converted failures last) :
    (failures.map PageFailure.name).Sublist names := by
  induction converts with
  | nil => exact .slnil
  | written done others induction => exact induction.cons _
  | failed refused others induction => exact induction.cons_cons _

theorem Converts.perm (converts : Converts batch store names converted failures last) :
    (converted ++ failures.map PageFailure.name).Perm names := by
  induction converts with
  | nil => exact .nil
  | written done others induction => exact induction.cons _
  | failed refused others induction => exact List.perm_middle.trans (induction.cons _)

theorem Converts.all_written (converts : Converts batch store names converted [] last) :
    WritesAll batch store names last := by
  have whole : names = converted := by
    refine (converts.converted_sublist.eq_of_length ?_).symm
    simpa using converts.perm.length_eq
  rw [WritesAll]
  rwa [← whole] at converts

theorem Converts.failures_eq_nil_iff
    (converts : Converts batch store names converted failures last) :
    failures = [] ↔ ∃ last, WritesAll batch store names last := by
  constructor
  · rintro rfl
    exact ⟨last, converts.all_written⟩
  · rintro ⟨last', writes⟩
    exact (converts.unique writes).2.1

theorem Converts.run_on (converts : Converts batch store names converted failures last)
    (policy : batch.onError = .continue) (result : BatchResult) :
    ∃ warnings, batch.convertAll result store names =
      (.ok ⟨result.written ++ converted.map batch.outputPath, result.failures ++ failures,
        warnings⟩, last) := by
  induction converts generalizing result with
  | nil => exact ⟨result.warnings, by simp [convertAll]⟩
  | written done others induction =>
      obtain ⟨warnings, ran⟩ := induction (record _ (.ok _) (batch.warned _ _ result))
      refine ⟨warnings, ?_⟩
      rw [convert_all_written done, ran, turn_path done]
      simp [record, written_warned, failures_warned]
  | failed refused others induction =>
      obtain ⟨warnings, ran⟩ := induction (record _ (.error _) (batch.warned _ _ result))
      refine ⟨warnings, ?_⟩
      rw [convert_all_skipped policy refused, ran]
      simp [record, written_warned, failures_warned]

theorem WritesAll.any_policy (writes : WritesAll batch store names last)
    (policy : FailurePolicy) (result : BatchResult) :
    (batch.withPolicy policy).convertAll result store names =
      batch.convertAll result store names := by
  rw [WritesAll] at writes
  induction names generalizing store result with
  | nil => rfl
  | cons name names induction =>
      cases writes with
      | written done others =>
          have done' := (turn_with_policy policy name store).trans done
          rw [convert_all_written done, convert_all_written done', warned_with_policy]
          exact induction others _

theorem Converts.first_failure {first : PageFailure}
    (converts : Converts batch store names converted (first :: failures) last) :
    ∃ before rest middle next, names = before ++ first.name :: rest ∧
      WritesAll batch store before middle ∧
      batch.turn first.name middle = (.error first.error, next) := by
  induction names generalizing store converted with
  | nil => cases converts
  | cons name names induction =>
      cases converts with
      | written done others =>
          obtain ⟨before, rest, middle, next, rfl, writes, refused⟩ := induction others
          exact ⟨name :: before, rest, middle, next, rfl, .written done writes, refused⟩
      | failed refused others => exact ⟨[], names, store, _, rfl, .nil store, refused⟩

/-- Stopping, a run ends at the first failure. -/
theorem WritesAll.stops {name : Text} {next : FileStore} {error : ConversionError}
    (writes : WritesAll batch store names last) (policy : batch.onError = .abort)
    (refused : batch.turn name last = (.error error, next)) (result : BatchResult)
    (rest : List Text) :
    batch.convertAll result store (names ++ name :: rest) = (.error error, next) := by
  rw [WritesAll] at writes
  induction names generalizing store result with
  | nil =>
      cases writes
      exact convert_all_stopped policy refused result rest
  | cons other names induction =>
      cases writes with
      | written done others =>
          rw [List.cons_append, convert_all_written done]
          exact induction others _

end

/-! ### Runs -/

theorem run_eq (batch : Batch) {store made : FileStore} {names : List Text}
    (listed : batch.sources store = .ok names)
    (created : store.makeDirectory batch.outputDirectory = .ok made) :
    batch.run store = batch.convertAll {} made names := by
  rw [run, listed]
  simp only [created]

theorem run_cases (batch : Batch) (store : FileStore) :
    (∃ error, ∀ policy, (batch.withPolicy policy).run store = (.error (.storage error), store)) ∨
      ∃ names made, batch.sources store = .ok names ∧
        store.makeDirectory batch.outputDirectory = .ok made := by
  cases listed : batch.sources store with
  | error error =>
      refine .inl ⟨error, fun policy => ?_⟩
      have refused : (batch.withPolicy policy).sources store = .error error := listed
      rw [run, refused]
  | ok names =>
      cases created : store.makeDirectory batch.outputDirectory with
      | error error =>
          refine .inl ⟨error, fun policy => ?_⟩
          have accepted : (batch.withPolicy policy).sources store = .ok names := listed
          have refused : store.makeDirectory (batch.withPolicy policy).outputDirectory =
              .error error := created
          rw [run, accepted]
          simp only [refused]
      | ok made => exact .inr ⟨names, made, rfl, rfl⟩

/-- A run that returns has let every page have its turn, and if it stops at failures,
there was none. -/
theorem run_ok {store after : FileStore} {result : BatchResult}
    (done : batch.run store = (.ok result, after)) :
    ∃ names made converted, batch.sources store = .ok names ∧
      store.makeDirectory batch.outputDirectory = .ok made ∧
      Converts batch made names converted result.failures after ∧
      (batch.onError = .abort → result.failures = []) := by
  rcases run_cases batch store with ⟨problem, ends⟩ | ⟨names, made, listed, created⟩
  · cases (ends batch.onError).symm.trans done
  · obtain ⟨converted, failures, last, converts⟩ := converts_exists batch made names
    rw [run_eq batch listed created] at done
    refine ⟨names, made, converted, listed, created, ?_⟩
    cases policy : batch.onError with
    | «continue» =>
        obtain ⟨warnings, ran⟩ := converts.run_on policy {}
        cases ran.symm.trans done
        exact ⟨by simpa using converts, nofun⟩
    | abort =>
        cases failures with
        | nil =>
            obtain ⟨warnings, ran⟩ := (converts.with_policy .continue).run_on rfl {}
            rw [converts.all_written.any_policy] at ran
            cases ran.symm.trans done
            exact ⟨by simpa using converts, fun _ => rfl⟩
        | cons first others =>
            obtain ⟨before, rest, middle, next, rfl, writes, refused⟩ := converts.first_failure
            cases (writes.stops policy refused {} rest).symm.trans done

theorem run_error_iff {store made : FileStore} {names : List Text}
    (listed : batch.sources store = .ok names)
    (created : store.makeDirectory batch.outputDirectory = .ok made) :
    (∃ error after, batch.run store = (.error error, after)) ↔
      batch.onError = .abort ∧ ∀ last, ¬batch.WritesAll made names last := by
  rw [run_eq batch listed created]
  constructor
  · rintro ⟨error, after, failed⟩
    obtain ⟨converted, failures, last, converts⟩ := converts_exists batch made names
    cases policy : batch.onError with
    | «continue» =>
        obtain ⟨warnings, ran⟩ := converts.run_on policy {}
        cases ran.symm.trans failed
    | abort =>
        refine ⟨rfl, fun last writes => ?_⟩
        obtain ⟨warnings, ran⟩ := (writes.with_policy .continue).run_on rfl {}
        rw [writes.any_policy, failed] at ran
        cases ran
  · rintro ⟨policy, incomplete⟩
    obtain ⟨converted, failures, last, converts⟩ := converts_exists batch made names
    cases failures with
    | nil => exact absurd converts.all_written (incomplete last)
    | cons first others =>
        obtain ⟨before, rest, middle, next, rfl, writes, refused⟩ := converts.first_failure
        exact ⟨first.error, next, writes.stops policy refused {} rest⟩

end LessonBook.Batch
