import IndexCoverage.Disk.Resolve
import IndexCoverage.Proofs.Text.Cutting
import Mathlib.Tactic.Tauto

/-! Names that the system takes, code point by code point. Where a path leads somewhere it takes
each part as a name, and a path of such names leads nowhere only for a cause that the system
gives. -/

namespace IndexCoverage

variable {s text : Text}

theorem nameBytes?_cons_ne_none_iff {c : CodePoint} :
    nameBytes? (c :: s) ≠ none ↔ nameBytes? [c] ≠ none ∧ nameBytes? s ≠ none := by
  have step : nameBytes? (c :: s) = (nameBytes? s).bind fun count =>
      (nameBytes? [c]).map (count + ·) := by
    cases c with
    | char c => simp [nameBytes?]
    | lone half =>
      simp only [nameBytes?, List.foldr_cons, List.foldr_nil, Option.bind_some]
      split <;> simp
  rw [step]
  cases nameBytes? s <;> cases nameBytes? [c] <;> simp

namespace Disk

theorem badName?_eq_none : badName? s = none ↔ nameBytes? s ≠ none ∧ CodePoint.char '\x00' ∉ s := by
  unfold badName?
  cases nameBytes? s <;> simp

theorem badName?_eq_none_iff : badName? s = none ↔ ∀ c ∈ s, badName? [c] = none := by
  induction s with
  | nil => exact iff_of_true rfl (by simp)
  | cons c s ih =>
    rw [List.forall_mem_cons, ← ih, badName?_eq_none, badName?_eq_none, badName?_eq_none,
      nameBytes?_cons_ne_none_iff, List.mem_cons, List.mem_singleton, not_or]
    tauto

theorem badName?_ofPlace {place : List Text} (named : ∀ name ∈ place, badName? name = none) :
    badName? (Path.ofPlace place).text = none := by
  rw [badName?_eq_none_iff]
  intro c inside
  rcases List.mem_cons.mp inside with rfl | inside
  · decide
  · rcases Text.mem_intercalate inside with rfl | ⟨name, here, there⟩
    · decide
    · exact badName?_eq_none_iff.mp (named name here) c there

theorem badName?_of_refused? (h : refused? text = none) : badName? text = none := by
  rw [badName?_eq_none]
  unfold refused? at h
  cases bytes : nameBytes? text with
  | none => simp [bytes] at h
  | some count =>
    refine ⟨by simp, fun present => ?_⟩
    simp [bytes, present] at h

theorem refused?_of_badName? (h : badName? text = none) :
    refused? text = none ∨ refused? text = some (.system ⟨.nameTooLong, text⟩) := by
  obtain ⟨encoded, absent⟩ := badName?_eq_none.mp h
  obtain ⟨count, bytes⟩ := Option.ne_none_iff_exists'.mp encoded
  have absent : text.contains (.char '\x00') = false := by simpa using absent
  unfold refused?
  simp only [bytes, absent, Bool.false_eq_true, if_false]
  by_cases long : maxPathBytes < count <;> simp [long]

variable {disk : Disk} {path : Path}

theorem refused?_of_find {found : List Text × Node} (h : disk.find path = .ok found) :
    refused? path.text = none := by
  unfold find at h
  cases refused : refused? path.text with
  | none => rfl
  | some e => simp [refused] at h

theorem badName?_of_find {found : List Text × Node} (h : disk.find path = .ok found) :
    ∀ part ∈ path.parts, badName? part = none := by
  have text := badName?_of_refused? (refused?_of_find h)
  intro part inside
  rw [badName?_eq_none_iff] at text ⊢
  intro c there
  refine text c ?_
  rw [Path.text, if_neg (by rintro ⟨-, none⟩; simp [none] at inside)]
  exact List.mem_append_right _ (Text.mem_intercalate_of_mem inside there)

theorem exists_system_of_find (named : badName? path.text = none) {e : PathError}
    (h : disk.find path = .error e) : ∃ cause, e = .system cause := by
  unfold find at h
  dsimp only at h
  rcases refused?_of_badName? named with accepted | long
  · rw [accepted] at h
    cases followed : disk.follow true maxLinks (disk.startOf path) path.parts with
    | ok found => simp [followed] at h
    | error errno =>
      rw [followed] at h
      exact ⟨_, (Except.error.inj h).symm⟩
  · rw [long] at h
    exact ⟨_, (Except.error.inj h).symm⟩

theorem exists_system_of_read (named : badName? path.text = none) {e : PathError}
    (h : disk.read path = .error e) : ∃ cause, e = .system cause := by
  unfold read at h
  cases found : disk.find path with
  | error cause =>
    rw [found] at h
    rw [← Except.error.inj h]
    exact exists_system_of_find named found
  | ok target =>
    obtain ⟨place, node⟩ := target
    rw [found] at h
    cases may : (disk.rights place).read with
    | false =>
      simp only [Bind.bind, Except.bind, may] at h
      exact ⟨_, (Except.error.inj h).symm⟩
    | true =>
      simp only [Bind.bind, Except.bind, may] at h
      cases node with
      | file content => cases h
      | link target => exact ⟨_, (Except.error.inj h).symm⟩
      | dir entries => exact ⟨_, (Except.error.inj h).symm⟩

end Disk
end IndexCoverage
