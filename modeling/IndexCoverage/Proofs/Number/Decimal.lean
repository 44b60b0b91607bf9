import IndexCoverage.Number.Numeral

/-! The decimal digits that a number is written with, and the number that is read from digits. -/

namespace IndexCoverage

theorem CodePoint.digit?_of_isDigit {c : Char} (h : c.isDigit = true) :
    digit? (char c) = some (c.toNat - '0'.toNat) := by
  simp only [Char.isDigit, Bool.and_eq_true, decide_eq_true_eq, ge_iff_le,
    UInt32.le_iff_toNat_le] at h
  exact if_pos h

theorem CodePoint.isAsciiDigit_of_isDigit {c : Char} (h : c.isDigit = true) :
    (char c).isAsciiDigit = true := by
  rw [isAsciiDigit, digit?_of_isDigit h]
  rfl

theorem Text.isAsciiDigit_of_mem_ofNat {n : Nat} {c : CodePoint} (inside : c ∈ ofNat n) :
    c.isAsciiDigit = true := by
  obtain ⟨digit, here, rfl⟩ := List.mem_map.mp inside
  exact CodePoint.isAsciiDigit_of_isDigit (Nat.isDigit_of_mem_toDigits (by decide) (by decide) here)

namespace Numeral

theorem foldl_digits {digits : List Char} (all : ∀ c ∈ digits, c.isDigit = true) (start : Nat) :
    ((digits.map CodePoint.char).filterMap CodePoint.digit?).foldl (fun n d => n * 10 + d) start =
      Nat.ofDigitChars 10 digits start := by
  induction digits generalizing start with
  | nil => rfl
  | cons c digits ih =>
    obtain ⟨here, later⟩ := List.forall_mem_cons.mp all
    rw [List.map_cons, List.filterMap_cons_some (CodePoint.digit?_of_isDigit here), List.foldl_cons,
      ih later, Nat.ofDigitChars_cons, Nat.mul_comm]

theorem valueOf_digits {digits : List Char} (all : ∀ c ∈ digits, c.isDigit = true) :
    valueOf 10 ((digits.map CodePoint.char).filterMap CodePoint.digit?) =
      Nat.ofDigitChars 10 digits 0 :=
  foldl_digits all 0

end Numeral
end IndexCoverage
