import IndexCoverage.Disk.Path
import Mathlib.Data.List.Lex

/-! The order of texts, code point by code point: a strict total order. Where neither of two
texts goes on with the other, what stands behind them does not matter; so a slash behind a name
decides how paths through a directory of that name are ordered. -/

namespace IndexCoverage
namespace Text

theorem before_iff_lt {s t : Text} :
    before s t = true ↔ s.map CodePoint.value < t.map CodePoint.value := by
  induction s generalizing t with
  | nil => cases t <;> simp [before]
  | cons a s ih =>
    cases t with
    | nil => simp [before]
    | cons b t =>
      rw [before, List.map_cons, List.map_cons, List.cons_lt_cons_iff, ← ih, CodePoint.value_inj]
      simp

theorem atMost_iff_le {s t : Text} :
    atMost s t = true ↔ s.map CodePoint.value ≤ t.map CodePoint.value := by
  rw [atMost, Bool.not_eq_true', Bool.eq_false_iff, ne_eq, before_iff_lt, not_lt]

theorem map_value_inj {s t : Text} : s.map CodePoint.value = t.map CodePoint.value ↔ s = t :=
  (List.map_injective_iff.mpr fun _ _ => CodePoint.value_inj.mp).eq_iff

theorem atMost_trans {s t u : Text} (first : atMost s t = true) (second : atMost t u = true) :
    atMost s u = true :=
  atMost_iff_le.mpr ((atMost_iff_le.mp first).trans (atMost_iff_le.mp second))

theorem atMost_total (s t : Text) : (atMost s t || atMost t s) = true := by
  rw [Bool.or_eq_true, atMost_iff_le, atMost_iff_le]
  exact le_total _ _

theorem before_of_atMost {s t : Text} (h : atMost s t = true) (other : s ≠ t) :
    before s t = true :=
  before_iff_lt.mpr ((atMost_iff_le.mp h).lt_of_ne (mt map_value_inj.mp other))

theorem before_irrefl (s : Text) : before s s = false := by
  rw [Bool.eq_false_iff, ne_eq, before_iff_lt]
  exact lt_irrefl _

theorem ne_of_before {s t : Text} (h : before s t = true) : s ≠ t := by
  rintro rfl
  simp [before_irrefl] at h

theorem before_eq_not {s t : Text} (other : s ≠ t) : before s t = !before t s := by
  rw [Bool.eq_iff_iff, Bool.not_eq_true', Bool.eq_false_iff, ne_eq, before_iff_lt, before_iff_lt,
    not_lt]
  exact ⟨le_of_lt, fun h => h.lt_of_ne (mt map_value_inj.mp other)⟩

theorem before_asymm {s t : Text} (h : before s t = true) : before t s = false := by
  rw [before_eq_not (ne_of_before h).symm, h]
  rfl

theorem before_append_left (s t u : Text) : before (s ++ t) (s ++ u) = before t u := by
  induction s with
  | nil => rfl
  | cons c s ih => simp [before, ih]

theorem before_append_of_not_prefix {s t : Text} (h : ¬s <+: t) (more : Text) :
    before (s ++ more) t = before s t := by
  induction s generalizing t with
  | nil => exact absurd (List.nil_prefix ..) h
  | cons a s ih =>
    cases t with
    | nil => rfl
    | cons b t =>
      rw [List.cons_append, before, before]
      by_cases same : a = b
      · subst same
        rw [ih fun inside => h ((List.prefix_cons_inj a).mpr inside)]
      · simp [same]

theorem before_append_of_not_prefix_right {s t : Text} (h : ¬t <+: s) (more : Text) :
    before s (t ++ more) = before s t := by
  have apart : s ≠ t ++ more := fun same => h (same ▸ List.prefix_append ..)
  have other : s ≠ t := fun same => h (same ▸ List.prefix_refl _)
  rw [before_eq_not apart, before_append_of_not_prefix h, ← before_eq_not other]

end Text
end IndexCoverage
