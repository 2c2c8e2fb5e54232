import Mathlib.Data.List.Induction
import LessonBook.Proofs.Exercise.Sequencing

/-!
Which pages are refused, and with what error. A page is accepted if its markers
alternate. Otherwise the error is about the first marker that goes with no
alternating sequence, or about the region that is open at the end of the page.
-/

namespace LessonBook

open Text

/-- Starts and ends take turns, up to an end, and each end has the kind of the
start in front of it. -/
def Alternating (tags : List (RegionKind × Boundary)) : Prop :=
  tags.length % 2 = 0 ∧ ∀ index first second, tags[2 * index]? = some first →
    tags[2 * index + 1]? = some second →
    first.2 = .start ∧ second.2 = .finish ∧ second.1 = first.1

def BeginsAlternating (tags : List (RegionKind × Boundary)) : Prop :=
  ∃ more, Alternating (tags ++ more)

/-- The marker at the index is the first one after which the sequence cannot be
continued to an alternating one. -/
def IsMisplaced (tags : List (RegionKind × Boundary)) (index : Nat) : Prop :=
  ¬BeginsAlternating (tags.take (index + 1)) ∧
    ∀ count ≤ index, BeginsAlternating (tags.take count)

/-- The name of the region behind the first `count` of the markers, when they alternate. -/
def regionBehind (markers : List Marker) (count : Nat) : Text :=
  if count % 2 = 0 then "outside".toList
  else "inside-".toList ++ ((markers[count - 1]?).map fun marker => marker.kind.name).getD []

theorem alternating_nil : Alternating [] :=
  ⟨rfl, by simp⟩

theorem not_alternating_singleton (tag : RegionKind × Boundary) : ¬Alternating [tag] := by
  intro alternating
  exact absurd alternating.1 (by simp)

theorem alternating_cons_cons (first second : RegionKind × Boundary)
    (tags : List (RegionKind × Boundary)) : Alternating (first :: second :: tags) ↔
      first.2 = .start ∧ second.2 = .finish ∧ second.1 = first.1 ∧ Alternating tags := by
  constructor
  · intro alternating
    obtain ⟨starts, finishes, same⟩ := alternating.2 0 first second rfl rfl
    have even := alternating.1
    rw [List.length_cons, List.length_cons] at even
    refine ⟨starts, finishes, same, by omega, ?_⟩
    intro index first' second' found found'
    exact alternating.2 (index + 1) first' second' found found'
  · rintro ⟨starts, finishes, same, even, pairs⟩
    refine ⟨by rw [List.length_cons, List.length_cons]; omega, ?_⟩
    intro index first' second' found found'
    cases index with
    | zero =>
        cases found
        cases found'
        exact ⟨starts, finishes, same⟩
    | succ index => exact pairs index first' second' found found'

namespace Region

theorem well_sequenced_iff_alternating (tags : List (RegionKind × Boundary)) :
    outside.WellSequenced tags ↔ Alternating tags := by
  match tags with
  | [] => exact ⟨fun _ => alternating_nil, fun _ => trivial⟩
  | [(kind, .start)] => exact ⟨fun refused => refused.elim, not_alternating_singleton _⟩
  | (kind, .finish) :: rest =>
      refine ⟨fun refused => refused.elim, ?_⟩
      cases rest with
      | nil => exact not_alternating_singleton _
      | cons second rest =>
          rw [alternating_cons_cons]
          intro alternating
          cases alternating.1
  | (kind, .start) :: (kind', .start) :: rest =>
      rw [alternating_cons_cons]
      exact ⟨fun refused => refused.elim, fun alternating => by cases alternating.2.1⟩
  | (kind, .start) :: (kind', .finish) :: rest =>
      rw [alternating_cons_cons, ← well_sequenced_iff_alternating rest]
      exact ⟨fun ⟨same, others⟩ => ⟨rfl, rfl, same, others⟩,
        fun ⟨_, _, same, others⟩ => ⟨same, others⟩⟩

def behind? (region : Region) : List (RegionKind × Boundary) → Option Region
  | [] => some region
  | tag :: tags => (region.next? tag.1.name tag.2.name).bind fun next => behind? next tags

theorem behind_append (region : Region) (front tags : List (RegionKind × Boundary)) :
    region.behind? (front ++ tags) = (region.behind? front).bind fun next => next.behind? tags := by
  induction front generalizing region with
  | nil => rfl
  | cons tag front induction =>
      rw [List.cons_append, behind?, behind?]
      cases region.next? tag.1.name tag.2.name with
      | none => rfl
      | some next => exact induction next

theorem well_sequenced_iff_behind (region : Region) (tags : List (RegionKind × Boundary)) :
    region.WellSequenced tags ↔ region.behind? tags = some outside := by
  induction tags generalizing region with
  | nil => cases region <;> simp [WellSequenced, behind?]
  | cons tag tags induction =>
      obtain ⟨kind, boundary⟩ := tag
      rw [behind?]
      cases region with
      | outside =>
          cases boundary with
          | start => simpa [next_outside_start, WellSequenced] using induction _
          | finish => simp [next_outside_finish, WellSequenced]
      | inside opened =>
          cases boundary with
          | start => simp [next_inside_start, WellSequenced]
          | finish =>
              by_cases same : kind = opened
              · simpa [next_inside_finish, same, WellSequenced] using induction _
              · simp [next_inside_finish, same, WellSequenced]

theorem can_close (region : Region) : ∃ tags, region.behind? tags = some outside := by
  cases region with
  | outside => exact ⟨[], rfl⟩
  | inside kind => exact ⟨[(kind, .finish)], by simp [behind?, next_inside_finish]⟩

theorem begins_alternating_iff (tags : List (RegionKind × Boundary)) :
    BeginsAlternating tags ↔ ∃ region, outside.behind? tags = some region := by
  simp only [BeginsAlternating, ← well_sequenced_iff_alternating, well_sequenced_iff_behind,
    behind_append, Option.bind_eq_some_iff]
  constructor
  · rintro ⟨more, region, here, -⟩
    exact ⟨region, here⟩
  · rintro ⟨region, here⟩
    obtain ⟨more, closed⟩ := can_close region
    exact ⟨more, region, here, closed⟩

/-- One marker leads from the outside into its region, or from its region to the outside. -/
theorem next_cases {region next : Region} {kind : RegionKind} {boundary : Boundary}
    (found : region.next? kind.name boundary.name = some next) :
    (region = outside ∧ next = inside kind) ∨ ((∃ opened, region = inside opened) ∧ next = outside) := by
  cases region with
  | outside =>
      cases boundary with
      | start =>
          rw [next_outside_start, Option.some.injEq] at found
          exact .inl ⟨rfl, found.symm⟩
      | finish => simp [next_outside_finish] at found
  | inside opened =>
      cases boundary with
      | start => simp [next_inside_start] at found
      | finish =>
          rw [next_inside_finish] at found
          split at found
          · cases found
            exact .inr ⟨⟨opened, rfl⟩, rfl⟩
          · cases found

theorem behind_outside {tags : List (RegionKind × Boundary)} {region : Region}
    (here : outside.behind? tags = some region) :
    (tags.length % 2 = 0 ∧ region = outside) ∨
      (tags.length % 2 = 1 ∧ ∃ front kind boundary, tags = front ++ [(kind, boundary)] ∧
        region = inside kind) := by
  induction tags using List.reverseRec generalizing region with
  | nil =>
      cases here
      exact .inl ⟨rfl, rfl⟩
  | append_singleton front tag induction =>
      obtain ⟨kind, boundary⟩ := tag
      rw [behind_append, Option.bind_eq_some_iff] at here
      obtain ⟨before, earlier, step⟩ := here
      simp only [behind?, Option.bind_eq_some_iff, Option.some.injEq] at step
      obtain ⟨next, found, rfl⟩ := step
      rw [List.length_append, List.length_singleton]
      rcases next_cases found with ⟨rfl, rfl⟩ | ⟨⟨opened, rfl⟩, rfl⟩
      · rcases induction earlier with ⟨even, -⟩ | ⟨-, _, _, _, -, inside⟩
        · exact .inr ⟨by omega, front, kind, boundary, rfl, rfl⟩
        · cases inside
      · rcases induction earlier with ⟨-, outside⟩ | ⟨odd, -⟩
        · cases outside
        · exact .inl ⟨by omega, rfl⟩

theorem advance_all_append {region next : Region} {front : List Marker} (markers : List Marker)
    (here : region.behind? (front.map Marker.tag) = some next) :
    region.advanceAll (front ++ markers) = next.advanceAll markers := by
  induction front generalizing region with
  | nil =>
      cases here
      rfl
  | cons marker front induction =>
      rw [List.map_cons, behind?, Option.bind_eq_some_iff] at here
      obtain ⟨between, found, here⟩ := here
      simp only [Marker.tag] at found
      rw [List.cons_append, advanceAll, advance, found]
      exact induction here

theorem name_behind {markers : List Marker} {region : Region} {count : Nat}
    (here : outside.behind? ((markers.map Marker.tag).take count) = some region)
    (inside : count ≤ markers.length) : region.name = regionBehind markers count := by
  have length : ((markers.map Marker.tag).take count).length = count := by
    rw [List.length_take, List.length_map, Nat.min_eq_left inside]
  rcases behind_outside here with ⟨even, rfl⟩ | ⟨odd, front, kind, boundary, split, rfl⟩
  · rw [regionBehind, if_pos (length ▸ even)]
    rfl
  · rw [length] at odd
    rw [split, List.length_append, List.length_singleton] at length
    have last : (markers.map Marker.tag)[count - 1]? = some (kind, boundary) := by
      rw [← List.getElem?_take_of_lt (by omega : count - 1 < count), split, ← length]
      simp
    rw [List.getElem?_map, Option.map_eq_some_iff] at last
    obtain ⟨marker, found, same⟩ := last
    rw [regionBehind, if_neg (by omega), found, Option.map_some, Option.getD_some]
    cases same
    rfl

end Region

namespace ExerciseBracketing

theorem bracket_exercises_eq_error {page : Text} {error : SequencingError}
    (refused : ((Region.outside.advanceAll (Marker.scan page)).bind Region.finish) = .error error) :
    bracketExercises page = .error error := by
  have steps : bracketExercises page =
      (((Region.outside.advanceAll (Marker.scan page)).bind Region.finish).bind fun _ =>
        .ok ((Piece.ofText page).flatMap render)).bind fun bracketed => .ok (collapse bracketed) := by
    simp only [bracketExercises, bracket, Marker.scan]
    cases Region.outside.advanceAll ((Piece.ofText page).filterMap Piece.marker?) <;> rfl
  rw [steps, refused]
  rfl

end ExerciseBracketing

/-- What the error about a marker that may not stand at its place says. -/
def SequencingError.IsAbout (error : SequencingError) (marker : Marker) (region : Text) : Prop :=
  error.marker = ['\x7b'] ++ marker.kind.name ++ ['-'] ++ marker.boundary.name ++ ['\x7d'] ∧
    error.region.name = region ∧
    error.message =
      (match marker.boundary with
        | .start => "start marker while a region is already open"
        | .finish => "end marker without an open region") ++
        " (line " ++ toString (marker.line + 1) ++ ")" ++ ": marker " ++
        String.ofList error.marker ++ " in state " ++ String.ofList region

theorem begins_alternating_take {tags : List (RegionKind × Boundary)}
    (begins : BeginsAlternating tags) (count : Nat) : BeginsAlternating (tags.take count) := by
  obtain ⟨more, alternating⟩ := begins
  refine ⟨tags.drop count ++ more, ?_⟩
  rw [← List.append_assoc, List.take_append_drop]
  exact alternating

/-- A sequence that begins no alternating one has a first marker that is to blame. -/
theorem misplaced_or_begins (tags : List (RegionKind × Boundary)) :
    (∃ index < tags.length, IsMisplaced tags index) ∨ BeginsAlternating tags := by
  induction tags using List.reverseRec with
  | nil => exact .inr ⟨[], alternating_nil⟩
  | append_singleton front tag induction =>
      have shorter (count : Nat) (within : count ≤ front.length) :
          (front ++ [tag]).take count = front.take count := by
        rw [List.take_append_of_le_length within]
      rcases induction with ⟨index, inside, stuck, earlier⟩ | begins
      · refine .inl ⟨index, by rw [List.length_append]; omega, ?_, fun count within => ?_⟩
        · rw [shorter _ inside]
          exact stuck
        · rw [shorter _ (by omega)]
          exact earlier count within
      · by_cases longer : BeginsAlternating (front ++ [tag])
        · exact .inr longer
        · refine .inl ⟨front.length, by simp, ?_, fun count within => ?_⟩
          · rw [List.take_of_length_le (by simp)]
            exact longer
          · rw [shorter _ within]
            exact begins_alternating_take begins count

theorem bracket_exercises_misplaced {page : Text} {index : Nat} {marker : Marker}
    (misplaced : IsMisplaced ((Marker.scan page).map Marker.tag) index)
    (found : (Marker.scan page)[index]? = some marker) :
    ∃ error, bracketExercises page = .error error ∧
      error.IsAbout marker (regionBehind (Marker.scan page) index) := by
  generalize scanned : Marker.scan page = markers at misplaced found ⊢
  obtain ⟨stuck, shorter⟩ := misplaced
  obtain ⟨inside, here⟩ := List.getElem?_eq_some_iff.mp found
  have fits := (Region.begins_alternating_iff _).mp (shorter index (Nat.le_refl index))
  obtain ⟨region, behind⟩ := fits
  have cut : markers = markers.take index ++ marker :: markers.drop (index + 1) := by
    rw [← here, List.getElem_cons_drop, List.take_append_drop]
  have refused : region.next? marker.kind.name marker.boundary.name = none := by
    by_contra allowed
    obtain ⟨next, step⟩ := Option.ne_none_iff_exists'.mp allowed
    apply stuck
    rw [Region.begins_alternating_iff, List.take_add_one]
    refine ⟨next, ?_⟩
    have tag : (markers.map Marker.tag)[index]? = some marker.tag := by
      rw [List.getElem?_map, found]
      rfl
    rw [Region.behind_append, behind, tag]
    simp [Region.behind?, Marker.tag, step]
  refine ⟨.misplaced marker.kind.name marker.boundary.name marker.line region, ?_, rfl, ?_, ?_⟩
  · apply ExerciseBracketing.bracket_exercises_eq_error
    have before : Region.outside.behind? ((markers.take index).map Marker.tag) = some region := by
      rw [List.map_take]
      exact behind
    rw [scanned, cut, Region.advance_all_append _ before, Region.advanceAll, Region.advance,
      refused]
    rfl
  · exact Region.name_behind behind (Nat.le_of_lt inside)
  · rw [← Region.name_behind behind (Nat.le_of_lt inside)]
    cases marker.boundary <;> rfl

theorem bracket_exercises_unclosed {page : Text}
    (begins : BeginsAlternating ((Marker.scan page).map Marker.tag))
    (opened : ¬Alternating ((Marker.scan page).map Marker.tag)) :
    ∃ error, bracketExercises page = .error error ∧
      error.marker = "end of document".toList ∧
      error.region.name = regionBehind (Marker.scan page) (Marker.scan page).length := by
  generalize scanned : Marker.scan page = markers at begins opened ⊢
  obtain ⟨region, behind⟩ := (Region.begins_alternating_iff _).mp begins
  have left : ∃ kind, region = .inside kind := by
    cases region with
    | outside =>
        rw [← Region.well_sequenced_iff_alternating, Region.well_sequenced_iff_behind] at opened
        exact absurd behind opened
    | inside kind => exact ⟨kind, rfl⟩
  obtain ⟨kind, rfl⟩ := left
  refine ⟨.unclosed (.inside kind), ?_, rfl, ?_⟩
  · apply ExerciseBracketing.bracket_exercises_eq_error
    have whole := Region.advance_all_append [] behind
    rw [List.append_nil] at whole
    rw [scanned, whole]
    rfl
  · refine Region.name_behind ?_ (Nat.le_refl markers.length)
    rw [← List.length_map, List.take_length]
    exact behind

/-- A page is accepted if its markers alternate; otherwise the first misplaced
marker is the error, and without one the region that is left open. -/
theorem bracket_exercises_outcome (page : Text) :
    let markers := Marker.scan page
    let tags := markers.map Marker.tag
    ((∃ output, bracketExercises page = .ok output) ↔ Alternating tags) ∧
      (¬Alternating tags →
        (∃ index < tags.length, IsMisplaced tags index) ∨ BeginsAlternating tags) ∧
      (∀ index marker, IsMisplaced tags index → markers[index]? = some marker →
        ∃ error, bracketExercises page = .error error ∧
          error.IsAbout marker (regionBehind markers index)) ∧
      (BeginsAlternating tags → ¬Alternating tags →
        ∃ error, bracketExercises page = .error error ∧
          error.marker = "end of document".toList ∧
          error.region.name = regionBehind markers markers.length) := by
  intro markers tags
  have accepted : (∃ output, bracketExercises page = .ok output) ↔ Alternating tags := by
    simp only [bracket_exercises_eq_ok_iff, ← Region.well_sequenced_iff_alternating,
      exists_and_left, exists_eq, and_true]
    rfl
  refine ⟨accepted, fun _ => misplaced_or_begins tags, ?_, ?_⟩
  · intro index marker misplaced found
    exact bracket_exercises_misplaced misplaced found
  · intro begins opened
    exact bracket_exercises_unclosed begins opened

end LessonBook
