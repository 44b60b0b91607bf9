import IndexCoverage.Number.Numeral
import IndexCoverage.Text.LowerCase

/-! Lower case, code point by code point. What a letter becomes stands beyond the digits and the
marks in front of the letters of ASCII, so those are in the result only where they were before. A
text of ASCII becomes another one, letter by letter. -/

namespace IndexCoverage
namespace CodePoint

theorem value_of_ofNat? {n : Nat} {c : CodePoint} (h : ofNat? n = some c) : c.value = n := by
  unfold ofNat? at h
  split at h
  · next lone? =>
    obtain rfl := Option.some.inj h
    exact Nat.add_sub_cancel' lone?.1
  · next plain =>
    split at h
    · next small =>
      obtain rfl := Option.some.inj h
      have valid : n.isValidChar := by
        unfold Nat.isValidChar
        omega
      rw [value, Char.ofNat, dif_pos valid]
      rfl
    · cases h

theorem le_add_of_mem_lowerRuns :
    ∀ run ∈ lowerRuns, 65 ≤ (run.1 : Int) + run.2.2.2 := by
  decide +kernel

theorem lower_eq_or_lt_value (c : CodePoint) : c.lower = c ∨ 64 < c.lower.value := by
  have shifted : ∀ n, 64 < n → (ofNat? n).getD c = c ∨ 64 < ((ofNat? n).getD c).value := by
    intro n high
    cases found : ofNat? n with
    | none => exact .inl rfl
    | some image => exact .inr (value_of_ofNat? found ▸ high)
  simp only [lower]
  split
  · split
    · exact shifted _ (by omega)
    · exact .inl rfl
  · split
    · next run =>
      have inside := List.mem_of_find?_eq_some run
      have bounds := List.find?_some run
      have high := le_add_of_mem_lowerRuns _ inside
      simp only [Bool.and_eq_true, decide_eq_true_eq] at bounds high
      exact shifted _ (by omega)
    · exact .inl rfl

theorem of_ascii {p : CodePoint → Prop} (h : ∀ n < 128, p (.char (Char.ofNat n))) {c : CodePoint}
    (ascii : c.isAscii = true) : p c := by
  have small : c.value < 128 := of_decide_eq_true ascii
  cases c with
  | char c =>
    have here := h c.toNat small
    rwa [Char.ofNat_toNat] at here
  | lone half => exact absurd small (by simp [value]; omega)

theorem lower_of_ascii {c : CodePoint} (ascii : c.isAscii = true) :
    c.lower = Numeral.lowerAscii c ∧ (Numeral.lowerAscii c).isAscii = true ∧
      Numeral.lowerAscii (Numeral.lowerAscii c) = Numeral.lowerAscii c :=
  of_ascii (p := fun c => c.lower = Numeral.lowerAscii c ∧
    (Numeral.lowerAscii c).isAscii = true ∧
      Numeral.lowerAscii (Numeral.lowerAscii c) = Numeral.lowerAscii c) (by decide +kernel) ascii

theorem lowerAscii_of_isAsciiDigit {c : CodePoint} (digit : c.isAsciiDigit = true) :
    c.isAscii = true ∧ Numeral.lowerAscii c = c := by
  have ascii : c.isAscii = true := by
    unfold isAsciiDigit digit? at digit
    split at digit
    · exact decide_eq_true (by omega)
    · cases digit
  exact ⟨ascii, of_ascii (p := fun c => c.isAsciiDigit = true → Numeral.lowerAscii c = c)
    (by decide +kernel) ascii digit⟩

end CodePoint

namespace Text

variable {s : Text} {c : CodePoint}

theorem lowerAfter_cons (before : Text) (c : CodePoint) (rest : Text) :
    ∃ image : Text, (image = [c] ∨ image ≠ [] ∧ ∀ d ∈ image, 64 < d.value) ∧
      lowerAfter before (c :: rest) = image ++ lowerAfter (c :: before) rest := by
  refine ⟨_, ?_, rfl⟩
  split
  · exact .inr (by decide)
  · split
    · split
      · exact .inr (by decide)
      · exact .inr (by decide)
    · rcases c.lower_eq_or_lt_value with same | high
      · exact .inl (by rw [same])
      · exact .inr ⟨by simp, fun d inside => by rwa [List.mem_singleton.mp inside]⟩

theorem mem_lowerAfter {before : Text} (inside : c ∈ lowerAfter before s) (low : c.value ≤ 64) :
    c ∈ s := by
  induction s generalizing before with
  | nil => simp [lowerAfter] at inside
  | cons d rest ih =>
    obtain ⟨image, kept, step⟩ := lowerAfter_cons before d rest
    rw [step, List.mem_append] at inside
    rcases inside with here | later
    · rcases kept with rfl | ⟨-, high⟩
      · exact List.mem_cons.mpr (.inl (List.mem_singleton.mp here))
      · exact absurd low (Nat.not_le.mpr (high c here))
    · exact List.mem_cons_of_mem _ (ih later)

theorem eq_of_lowerAfter_eq {before marks : Text} (same : lowerAfter before s = marks)
    (low : ∀ c ∈ marks, c.value ≤ 64) : s = marks := by
  induction s generalizing before marks with
  | nil => exact same
  | cons d rest ih =>
    obtain ⟨image, kept, step⟩ := lowerAfter_cons before d rest
    rw [← same, step] at low ⊢
    rcases kept with rfl | ⟨nonempty, high⟩
    · have later := ih rfl fun c inside => low c (List.mem_append_right _ inside)
      rw [← later]
      rfl
    · obtain ⟨c, inside⟩ := List.exists_mem_of_ne_nil image nonempty
      exact absurd (low c (List.mem_append_left _ inside)) (Nat.not_le.mpr (high c inside))

theorem mem_lower (inside : c ∈ lower s) (low : c.value ≤ 64) : c ∈ s := mem_lowerAfter inside low

theorem lower_eq_nil_iff : lower s = [] ↔ s = [] :=
  ⟨fun none => eq_of_lowerAfter_eq none nofun, fun none => by rw [none]; rfl⟩

theorem lower_eq_iff {marks : Text} (low : ∀ c ∈ marks, c.value ≤ 64)
    (fixed : lower marks = marks) : lower s = marks ↔ s = marks :=
  ⟨fun same => eq_of_lowerAfter_eq same low, fun same => same ▸ fixed⟩

theorem lowerAfter_of_ascii {before : Text} (ascii : s.isAscii = true) :
    lowerAfter before s = s.map Numeral.lowerAscii := by
  induction s generalizing before with
  | nil => rfl
  | cons c rest ih =>
    obtain ⟨here, later⟩ := Bool.and_eq_true_iff.mp ascii
    have small : c.value < 128 := of_decide_eq_true here
    rw [lowerAfter, if_neg (by omega), if_neg (by omega), ih later,
      (CodePoint.lower_of_ascii here).1]
    rfl

theorem lower_of_ascii (ascii : s.isAscii = true) : lower s = s.map Numeral.lowerAscii :=
  lowerAfter_of_ascii ascii

theorem lower_eq_self (fixed : ∀ c ∈ s, c.isAscii = true ∧ Numeral.lowerAscii c = c) :
    lower s = s := by
  rw [lower_of_ascii (List.all_eq_true.mpr fun c inside => (fixed c inside).1)]
  exact (List.map_congr_left fun c inside => (fixed c inside).2).trans (List.map_id s)

end Text
end IndexCoverage
