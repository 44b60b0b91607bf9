import IndexCoverage.Proofs.Text.Cutting
import IndexCoverage.Repo.Uri

/-! The segments of a path that has been cleaned. Each step along a path keeps them tidy, and
tidy segments are kept as they are; so what has been cleaned is not changed by cleaning it again. -/

namespace IndexCoverage
namespace Url

/-- No segment is empty or a dot. Two dots stand in front only, and not behind a slash at the
start. -/
structure Tidy (rooted : Bool) (segments : List Text) : Prop where
  counts : ∀ segment ∈ segments, segment ≠ [] ∧ segment ≠ Path.dot ∧ slash ∉ segment
  grounded : rooted = true → Path.dotDot ∉ segments
  climbsFirst : segments.Pairwise fun before after => after = Path.dotDot → before = Path.dotDot

theorem tidy_nil (rooted : Bool) : Tidy rooted [] := ⟨nofun, fun _ => List.not_mem_nil, .nil⟩

section Step

variable {rooted : Bool} {done : List Text} {segment : Text}

theorem addSegment_of_idle (h : segment = [] ∨ segment = Path.dot) :
    addSegment rooted done segment = done := by
  rcases h with rfl | rfl <;> rfl

theorem addSegment_of_name (nonempty : segment ≠ []) (notDot : segment ≠ Path.dot)
    (notUp : segment ≠ Path.dotDot) : addSegment rooted done segment = done ++ [segment] := by
  have counts : (segment.isEmpty || decide (segment = Path.dot)) = false := by
    simp [nonempty, notDot]
  exact (if_neg (ne_true_of_eq_false counts)).trans (if_pos notUp)

theorem Tidy.splitOn_intercalate (tidy : Tidy rooted done) (some : done ≠ []) :
    Text.splitOn slash (List.intercalate [slash] done) = done := by
  obtain ⟨first, more, rfl⟩ := List.exists_cons_of_ne_nil some
  exact Text.splitOn_intercalate fun segment inside => (tidy.counts segment inside).2.2

theorem addSegment_up (rooted : Bool) (done : List Text) :
    addSegment rooted done Path.dotDot =
      if done.isEmpty then if rooted then [] else [Path.dotDot]
      else if done.getLast? = some Path.dotDot then done ++ [Path.dotDot]
      else done.dropLast := rfl

theorem addSegment_cases (rooted : Bool) (done : List Text) (segment : Text) :
    addSegment rooted done segment = done ∨
      addSegment rooted done segment = done.dropLast ∨
      addSegment rooted done segment = done ++ [segment] ∧ segment ≠ [] ∧ segment ≠ Path.dot ∧
        (segment = Path.dotDot →
          done = [] ∧ rooted = false ∨ done.getLast? = some Path.dotDot) := by
  by_cases idle : segment = [] ∨ segment = Path.dot
  · exact .inl (addSegment_of_idle idle)
  · obtain ⟨nonempty, notDot⟩ := not_or.mp idle
    by_cases up : segment = Path.dotDot
    · subst up
      rw [addSegment_up]
      by_cases empty : done = []
      · subst empty
        cases rooted with
        | false => exact .inr (.inr ⟨rfl, nonempty, notDot, fun _ => .inl ⟨rfl, rfl⟩⟩)
        | true => exact .inl rfl
      · rw [if_neg (by simpa using empty)]
        split
        · next last => exact .inr (.inr ⟨rfl, nonempty, notDot, fun _ => .inr last⟩)
        · exact .inr (.inl rfl)
    · exact .inr (.inr ⟨addSegment_of_name nonempty notDot up, nonempty, notDot,
        fun same => absurd same up⟩)

theorem addSegment_sublist (rooted : Bool) (done : List Text) (segment : Text) :
    (addSegment rooted done segment).Sublist (done ++ [segment]) := by
  rcases addSegment_cases rooted done segment with same | dropped | ⟨added, -⟩
  · rw [same]
    exact List.sublist_append_left ..
  · rw [dropped]
    exact (List.dropLast_sublist _).trans (List.sublist_append_left ..)
  · rw [added]

theorem Tidy.of_sublist {segments : List Text} (tidy : Tidy rooted segments)
    (h : done.Sublist segments) : Tidy rooted done where
  counts segment inside := tidy.counts segment (h.subset inside)
  grounded isRooted inside := tidy.grounded isRooted (h.subset inside)
  climbsFirst := tidy.climbsFirst.sublist h

theorem Tidy.cons_host {host : Text} (tidy : Tidy true done) (nonempty : host ≠ [])
    (notDot : host ≠ Path.dot) (whole : slash ∉ host) : Tidy false (host :: done) where
  counts := List.forall_mem_cons.mpr ⟨⟨nonempty, notDot, whole⟩, tidy.counts⟩
  grounded := nofun
  climbsFirst := List.pairwise_cons.mpr
    ⟨fun _ inside up => absurd (up ▸ inside) (tidy.grounded rfl), tidy.climbsFirst⟩

theorem Tidy.eq_dotDot_of_getLast? (tidy : Tidy rooted done)
    (last : done.getLast? = some Path.dotDot) : ∀ before ∈ done, before = Path.dotDot := by
  obtain ⟨front, rfl⟩ := List.getLast?_eq_some_iff.mp last
  obtain ⟨-, -, climbs⟩ := List.pairwise_append.mp tidy.climbsFirst
  intro before inside
  rcases List.mem_append.mp inside with inFront | isLast
  · exact climbs before inFront _ (List.mem_singleton_self _) rfl
  · exact List.mem_singleton.mp isLast

theorem Tidy.addSegment (tidy : Tidy rooted done) (whole : slash ∉ segment) :
    Tidy rooted (Url.addSegment rooted done segment) := by
  rcases addSegment_cases rooted done segment with
    same | dropped | ⟨added, nonempty, notDot, room⟩
  · rwa [same]
  · rw [dropped]
    exact tidy.of_sublist (List.dropLast_sublist _)
  · rw [added]
    refine ⟨?_, ?_, ?_⟩
    · intro other inside
      rcases List.mem_append.mp inside with before | here
      · exact tidy.counts other before
      · rw [List.mem_singleton.mp here]
        exact ⟨nonempty, notDot, whole⟩
    · intro isRooted inside
      rcases List.mem_append.mp inside with before | here
      · exact tidy.grounded isRooted before
      · rcases room (List.mem_singleton.mp here).symm with ⟨-, free⟩ | last
        · simp [isRooted] at free
        · exact tidy.grounded isRooted (List.mem_of_getLast? last)
    · refine List.pairwise_append.mpr ⟨tidy.climbsFirst, List.pairwise_singleton _ _, ?_⟩
      intro before inside after here up
      rcases room ((List.mem_singleton.mp here).symm.trans up) with ⟨rfl, -⟩ | last
      · simp at inside
      · exact tidy.eq_dotDot_of_getLast? last before inside

theorem addSegment_of_tidy (tidy : Tidy rooted (done ++ [segment])) :
    addSegment rooted done segment = done ++ [segment] := by
  have here : segment ∈ done ++ [segment] := by simp
  obtain ⟨nonempty, notDot, -⟩ := tidy.counts segment here
  by_cases up : segment = Path.dotDot
  · subst up
    rw [addSegment_up]
    rcases List.eq_nil_or_concat done with rfl | ⟨front, last, rfl⟩
    · cases rooted with
      | false => rfl
      | true => exact absurd here (tidy.grounded rfl)
    · have climbs := (List.pairwise_append.mp tidy.climbsFirst).2.2
      have same : last = Path.dotDot := climbs last (by simp) _ (List.mem_singleton_self _) rfl
      rw [if_neg (by simp), if_pos (by simp [same])]
  · exact addSegment_of_name nonempty notDot up

end Step

section Run

variable {rooted : Bool} {done segments : List Text}

theorem foldl_addSegment_sublist (rooted : Bool) (done segments : List Text) :
    (segments.foldl (addSegment rooted) done).Sublist (done ++ segments) := by
  induction segments generalizing done with
  | nil => simp
  | cons segment rest ih =>
    have step := (addSegment_sublist rooted done segment).append_right rest
    rw [List.append_assoc, List.singleton_append] at step
    exact (ih _).trans step

theorem Tidy.foldl_addSegment (tidy : Tidy rooted done)
    (whole : ∀ segment ∈ segments, slash ∉ segment) :
    Tidy rooted (segments.foldl (Url.addSegment rooted) done) := by
  induction segments generalizing done with
  | nil => exact tidy
  | cons segment rest ih =>
    exact ih (tidy.addSegment (whole segment (List.mem_cons_self ..)))
      fun other inside => whole other (List.mem_cons_of_mem _ inside)

theorem foldl_addSegment_of_tidy (tidy : Tidy rooted (done ++ segments)) :
    segments.foldl (addSegment rooted) done = done ++ segments := by
  induction segments generalizing done with
  | nil => simp
  | cons segment rest ih =>
    rw [← List.singleton_append, ← List.append_assoc] at tidy
    have step := addSegment_of_tidy (tidy.of_sublist (List.sublist_append_left ..))
    rw [List.foldl_cons, step, ih tidy, List.append_assoc, List.singleton_append]

end Run

end Url
end IndexCoverage
