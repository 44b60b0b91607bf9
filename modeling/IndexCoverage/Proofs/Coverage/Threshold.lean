import IndexCoverage.Coverage.SourceFile
import IndexCoverage.Proofs.Number.Rounding

/-! The threshold of a covered file. Seven tenths is no double, and the one nearest to it is less.
With no more than `2 ^ 53` lines no count lies between, so that comparing the rounded quotient with
the double is comparing the exact one with seven tenths; with `2 ^ 54` lines a count does. -/

namespace IndexCoverage

open Binary64

theorem ratio_natCast (part all : Nat) : ratio part all =
    if roundedUnits part all < limit then .ok (.finite false (roundedUnits part all))
    else .error .overflow := by
  have sign (n : Nat) : decide ((n : Int) < 0) = false := decide_eq_false (by omega)
  rw [ratio, quotient?, sign, sign, Int.natAbs_natCast, Int.natAbs_natCast, bne_self_eq_false]
  rcases ofQuotient_cases false part all with ⟨fits, made⟩ | ⟨fits, made⟩
  · rw [made, if_pos fits]
    rfl
  · rw [made, if_neg fits]
    rfl

/-- Seven tenths of `2 ^ 53`, rounded down; four tenths are left over. -/
def thresholdDigits : Nat := 6305039478318694

theorem exists_coveredThreshold : ∃ s, unitsPerOne = 2 ^ 53 * 2 ^ s ∧
    coveredThreshold = .finite false (thresholdDigits * 2 ^ s) :=
  ⟨1021, by decide +kernel, by decide +kernel⟩

/-- With at most `2 ^ 53` lines no count comes between seven tenths and the middle between the
threshold and the next double. The middle itself is out of reach with `2 ^ 53` lines too, since
an odd number would have to be ten times another. -/
theorem above_middle_iff {part all : Nat} (few : all ≤ 2 ^ 53) :
    (2 * thresholdDigits + 1) * all < 2 ^ 54 * part ↔ 7 * all < 10 * part := by
  rw [thresholdDigits]
  rcases few.lt_or_eq with fewer | rfl
  · omega
  · omega

theorem threshold_lt_iff {part all s : Nat} (unit : unitsPerOne = 2 ^ 53 * 2 ^ s)
    (positive : 0 < all) (few : all ≤ 2 ^ 53) :
    thresholdDigits * 2 ^ s < roundedUnits part all ↔ 7 * all < 10 * part := by
  have left : 2 * (part * unitsPerOne) = 2 ^ 54 * part * 2 ^ s := by
    rw [unit]
    ring
  have right : (2 * thresholdDigits + 1) * (all * 2 ^ s) =
      (2 * thresholdDigits + 1) * all * 2 ^ s := (Nat.mul_assoc ..).symm
  have even : ¬thresholdDigits % 2 = 1 := by decide
  rw [lt_roundedUnits_iff (by decide) (by decide) positive, left, right,
    Nat.mul_lt_mul_right (Nat.two_pow_pos s), or_iff_left fun tie => even tie.2,
    above_middle_iff few]

namespace SourceFile

/-- With at most `2 ^ 53` lines a file is covered exactly if more than seven tenths of its lines
are. The test fails only where the quotient is too large for a double. -/
theorem isCovered_eq_exact {file : SourceFile} (defs : 0 ≤ file.numDefs)
    (refs : 0 ≤ file.numRefsValid) (positive : 1 ≤ file.loc) (few : file.loc ≤ 2 ^ 53) :
    file.isCovered =
      if file.numDefs + file.numRefsValid < tooLarge * file.loc then
        .ok (decide (7 * file.loc < 10 * (file.numDefs + file.numRefsValid)))
      else .error .overflow := by
  obtain ⟨part, counted⟩ := Int.eq_ofNat_of_zero_le (add_nonneg defs refs)
  obtain ⟨all, lines⟩ := Int.eq_ofNat_of_zero_le (by omega : 0 ≤ file.loc)
  rw [lines] at positive few
  have positive : 0 < all := by omega
  have few : all ≤ 2 ^ 53 := by exact_mod_cast few
  obtain ⟨s, unit, threshold⟩ := exists_coveredThreshold
  have fits : (part : Int) < tooLarge * (all : Int) ↔ roundedUnits part all < limit := by
    rw [roundedUnits_lt_limit_iff positive]
    exact_mod_cast Iff.rfl
  have above : coveredThreshold.less (.finite false (roundedUnits part all)) =
      decide (7 * (all : Int) < 10 * part) := by
    have cast : (thresholdDigits * 2 ^ s : Nat) < (roundedUnits part all : Int) ↔
        7 * (all : Int) < 10 * part := by
      rw [Int.ofNat_lt, threshold_lt_iff unit positive few]
      omega
    rw [threshold]
    exact decide_eq_decide.mpr cast
  rw [isCovered, counted, lines, if_neg (by omega), ratio_natCast]
  simp only [fits]
  split
  · rw [← above]
    rfl
  · rfl

def sized (lines defs : Nat) : SourceFile :=
  { path := "main.go", language := "Go", loc := lines, numRefs := 1, numRefsValid := 1,
    numDefs := defs }

/-- Six tenths of a token more than seven tenths of the lines are enough. -/
theorem isCovered_sized :
    0 ≤ (sized (2 ^ 53) 6305039478318694).numDefs ∧
      0 ≤ (sized (2 ^ 53) 6305039478318694).numRefsValid ∧
      1 ≤ (sized (2 ^ 53) 6305039478318694).loc ∧
      (sized (2 ^ 53) 6305039478318694).loc ≤ 2 ^ 53 ∧
      (sized (2 ^ 53) 6305039478318694).isCovered = .ok true :=
  ⟨by decide, by decide, by decide, by decide,
    (isCovered_eq_exact (by decide) (by decide) (by decide) (by decide)).trans (by decide +kernel)⟩

example : 7 * (2 : Int) ^ 54 < 10 * 12610078956637389 ∧
    (ratio 12610078956637389 (2 ^ 54)).map coveredThreshold.less = .ok false := by
  decide +kernel

end SourceFile
end IndexCoverage
