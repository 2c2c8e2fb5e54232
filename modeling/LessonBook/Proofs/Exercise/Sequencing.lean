import LessonBook.Exercise.Bracketing

/-!
The sequences of markers that are accepted: starts and ends alternate, and every
end has the kind that the start before it has opened.
-/

namespace LessonBook

def Marker.tag (marker : Marker) : RegionKind × Boundary :=
  (marker.kind, marker.boundary)

namespace Region

/-- The markers close the region in which they begin and each one they open. -/
def WellSequenced : Region → List (RegionKind × Boundary) → Prop
  | outside, [] => True
  | inside _, [] => False
  | outside, (kind, .start) :: tags => WellSequenced (inside kind) tags
  | outside, (_, .finish) :: _ => False
  | inside _, (_, .start) :: _ => False
  | inside opened, (kind, .finish) :: tags => kind = opened ∧ WellSequenced outside tags

instance decideWellSequenced : (region : Region) → (tags : List (RegionKind × Boundary)) →
    Decidable (region.WellSequenced tags)
  | outside, [] => isTrue trivial
  | inside _, [] => isFalse id
  | outside, (kind, .start) :: tags => decideWellSequenced (inside kind) tags
  | outside, (_, .finish) :: _ => isFalse id
  | inside _, (_, .start) :: _ => isFalse id
  | inside opened, (kind, .finish) :: tags =>
      have := decideWellSequenced outside tags
      inferInstanceAs (Decidable (kind = opened ∧ outside.WellSequenced tags))

theorem next_outside_start (kind : RegionKind) :
    outside.next? kind.name Boundary.start.name = some (inside kind) := by
  cases kind <;> rfl

theorem next_outside_finish (kind : RegionKind) :
    outside.next? kind.name Boundary.finish.name = none := by
  cases kind <;> rfl

theorem next_inside_start (opened kind : RegionKind) :
    (inside opened).next? kind.name Boundary.start.name = none := by
  cases kind <;> cases opened <;> rfl

theorem next_inside_finish (opened kind : RegionKind) :
    (inside opened).next? kind.name Boundary.finish.name =
      if kind = opened then some outside else none := by
  cases kind <;> cases opened <;> rfl

/-- Reading markers to the end of a page succeeds for well sequenced ones only. -/
theorem advance_all_eq_ok_iff (region : Region) (markers : List Marker) :
    (region.advanceAll markers).bind finish = .ok () ↔
      region.WellSequenced (markers.map Marker.tag) := by
  induction markers generalizing region with
  | nil => cases region <;> simp [advanceAll, Except.bind, finish, WellSequenced]
  | cons marker markers induction =>
      have step : (region.advanceAll (marker :: markers)).bind finish =
          (region.advance marker.kind.name marker.boundary.name marker.line).bind fun next =>
            (next.advanceAll markers).bind finish := by
        rw [advanceAll]
        cases region.advance marker.kind.name marker.boundary.name marker.line <;> rfl
      rw [step, advance, List.map_cons, Marker.tag]
      cases region with
      | outside =>
          cases marker.boundary with
          | start => simpa [next_outside_start, Except.bind, WellSequenced] using induction _
          | finish => simp [next_outside_finish, Except.bind, WellSequenced]
      | inside opened =>
          cases marker.boundary with
          | start => simp [next_inside_start, Except.bind, WellSequenced]
          | finish =>
              by_cases same : marker.kind = opened
              · simpa [next_inside_finish, same, Except.bind, WellSequenced] using induction _
              · simp [next_inside_finish, same, Except.bind, WellSequenced]

theorem well_sequenced_append {region : Region} {front tags : List (RegionKind × Boundary)}
    (sequenced : region.WellSequenced (front ++ tags)) :
    ∃ next : Region, ∀ others,
      region.WellSequenced (front ++ others) ↔ next.WellSequenced others := by
  induction front generalizing region with
  | nil => exact ⟨region, fun others => Iff.rfl⟩
  | cons tag front induction =>
      match region, tag, sequenced with
      | outside, (kind, .start), sequenced => exact induction sequenced
      | inside opened, (kind, .finish), sequenced =>
          obtain ⟨next, behind⟩ := induction sequenced.2
          exact ⟨next, fun others => ⟨fun whole => (behind others).mp whole.2,
            fun rest => ⟨sequenced.1, (behind others).mpr rest⟩⟩⟩

/-- A start is followed by the end of its kind, and no order of markers is kept without that end. -/
theorem finish_of_start {front back : List (RegionKind × Boundary)} {kind : RegionKind}
    {tag : RegionKind × Boundary}
    (sequenced : outside.WellSequenced (front ++ (kind, .start) :: tag :: back)) :
    tag = (kind, .finish) ∧ ¬outside.WellSequenced (front ++ (kind, .start) :: back) := by
  obtain ⟨next, behind⟩ := well_sequenced_append sequenced
  rw [behind] at sequenced
  match next, tag, sequenced with
  | outside, (other, .finish), sequenced =>
      obtain ⟨rfl, rest⟩ := sequenced
      refine ⟨rfl, ?_⟩
      intro alone
      rw [behind] at alone
      match back, rest, alone with
      | (_, .start) :: _, _, alone => exact alone
      | (_, .finish) :: _, rest, _ => exact rest

end Region

namespace ExerciseBracketing

theorem bracket_eq_ok_iff (page output : Text) : bracket page = .ok output ↔
    Region.outside.WellSequenced ((Marker.scan page).map Marker.tag) ∧
      output = (Piece.ofText page).flatMap render := by
  rw [← Region.advance_all_eq_ok_iff]
  have steps : bracket page =
      ((Region.outside.advanceAll (Marker.scan page)).bind Region.finish).bind fun _ =>
        .ok ((Piece.ofText page).flatMap render) := by
    simp only [bracket, Marker.scan]
    cases Region.outside.advanceAll ((Piece.ofText page).filterMap Piece.marker?) <;> rfl
  rw [steps]
  cases (Region.outside.advanceAll (Marker.scan page)).bind Region.finish with
  | error error => simp [Except.bind]
  | ok result => simp [Except.bind, eq_comm]

end ExerciseBracketing

theorem bracket_exercises_eq_ok_iff (page output : Text) : bracketExercises page = .ok output ↔
    Region.outside.WellSequenced ((Marker.scan page).map Marker.tag) ∧
      output = ExerciseBracketing.collapse
        ((Piece.ofText page).flatMap ExerciseBracketing.render) := by
  have steps : bracketExercises page =
      (ExerciseBracketing.bracket page).bind fun bracketed =>
        .ok (ExerciseBracketing.collapse bracketed) := rfl
  rw [steps]
  cases bracketed : ExerciseBracketing.bracket page with
  | error error =>
      have refused : ¬Region.outside.WellSequenced ((Marker.scan page).map Marker.tag) := by
        intro sequenced
        have accepted := (ExerciseBracketing.bracket_eq_ok_iff page _).mpr ⟨sequenced, rfl⟩
        rw [bracketed] at accepted
        cases accepted
      simp [Except.bind, refused]
  | ok text =>
      obtain ⟨sequenced, same⟩ := (ExerciseBracketing.bracket_eq_ok_iff page text).mp bracketed
      simp [Except.bind, sequenced, same, eq_comm]

end LessonBook
