import IndexCoverage.Number.Binary64
import Mathlib.Data.Rat.Floor
import Mathlib.Tactic.FieldSimp
import Mathlib.Tactic.Linarith

/-! Rounding quotients to doubles keeps their order. So a rounded quotient depends on the exact one
alone. It is at most a given double exactly if the exact one is below the middle between this double
and the next, or in the middle while this one is even. The middle above the largest double is where
a quotient is too large. -/

namespace IndexCoverage

theorem div_le_div_of_cross {a b c d : Nat} (hb : 0 < b) (hd : 0 < d) (h : a * d ≤ c * b) :
    a / b ≤ c / d := by
  rw [Nat.le_div_iff_mul_le hd]
  refine Nat.le_of_mul_le_mul_right ?_ hb
  calc a / b * d * b = a / b * b * d := Nat.mul_right_comm ..
    _ ≤ a * d := Nat.mul_le_mul_right d (Nat.div_mul_le_self a b)
    _ ≤ c * b := h

theorem roundHalfEven_mono {a b c d : Nat} (hb : 0 < b) (hd : 0 < d) (h : a * d ≤ c * b) :
    roundHalfEven a b ≤ roundHalfEven c d := by
  rcases (div_le_div_of_cross hb hd h).lt_or_eq with less | same
  · have up : roundHalfEven a b ≤ a / b + 1 := by
      unfold roundHalfEven
      dsimp only
      split <;> omega
    have down : c / d ≤ roundHalfEven c d := by
      unfold roundHalfEven
      dsimp only
      split <;> omega
    omega
  · -- Between the same whole numbers what is left over decides.
    have left : a % b * d ≤ c % d * b := by
      have first := Nat.div_add_mod a b
      have second := Nat.div_add_mod c d
      rw [← first, ← second, ← same] at h
      nlinarith
    have half : b < 2 * (a % b) → d < 2 * (c % d) := by
      intro above
      nlinarith
    have tie : 2 * (a % b) = b → d ≤ 2 * (c % d) := by
      intro even
      nlinarith
    unfold roundHalfEven
    dsimp only
    rw [same]
    split
    · next ups =>
      rcases ups with above | ⟨even, odd⟩
      · rw [if_pos (.inl (half above))]
      · rw [if_pos]
        have := tie even
        omega
    · split <;> omega

theorem roundHalfEven_one (n : Nat) : roundHalfEven n 1 = n := by
  simp [roundHalfEven, Nat.mod_one]

theorem le_roundHalfEven {n a b : Nat} (hb : 0 < b) (h : n * b ≤ a) : n ≤ roundHalfEven a b := by
  have mono : roundHalfEven n 1 ≤ roundHalfEven a b :=
    roundHalfEven_mono Nat.one_pos hb (by rwa [Nat.mul_one])
  rwa [roundHalfEven_one] at mono

theorem roundHalfEven_le {n a b : Nat} (hb : 0 < b) (h : a ≤ n * b) : roundHalfEven a b ≤ n := by
  have mono : roundHalfEven a b ≤ roundHalfEven n 1 :=
    roundHalfEven_mono hb Nat.one_pos (by rwa [Nat.mul_one])
  rwa [roundHalfEven_one] at mono

theorem roundHalfEven_le_iff {n a b : Nat} (hb : 0 < b) :
    roundHalfEven a b ≤ n ↔ 2 * a < (2 * n + 1) * b ∨ 2 * a = (2 * n + 1) * b ∧ n % 2 = 0 := by
  have parts := Nat.div_add_mod a b
  have rest := Nat.mod_lt a hb
  have twice : 2 * a = 2 * (b * (a / b)) + 2 * (a % b) := by omega
  have middle : (2 * n + 1) * b = 2 * (b * n) + b := by ring
  unfold roundHalfEven
  dsimp only
  rw [twice, middle]
  rcases Nat.lt_trichotomy (a / b) n with less | same | more
  · have step : b * (a / b) + b ≤ b * n := by
      rw [← Nat.mul_succ]
      exact Nat.mul_le_mul_left b less
    split <;> omega
  · rw [← same]
    split <;> omega
  · have step : b * n + b ≤ b * (a / b) := by
      rw [← Nat.mul_succ]
      exact Nat.mul_le_mul_left b more
    split <;> omega

namespace Binary64

variable {num den more other : Nat}

theorem spacing_pos (floor : Nat) : 0 < spacing floor := Nat.pow_pos (by decide)

theorem spacing_dvd_pow {floor k : Nat} (h : floor.log2 ≤ k) : spacing floor ∣ 2 ^ k :=
  pow_dvd_pow 2 (by omega)

theorem roundedUnits_le {bound : Nat} (hden : 0 < den)
    (fits : spacing (num * unitsPerOne / den) ∣ bound) (h : num * unitsPerOne ≤ bound * den) :
    roundedUnits num den ≤ bound := by
  obtain ⟨count, rfl⟩ := fits
  rw [roundedUnits, Nat.mul_comm (spacing _) count]
  refine Nat.mul_le_mul_right _ (roundHalfEven_le (Nat.mul_pos hden (spacing_pos _)) ?_)
  rwa [← Nat.mul_assoc, Nat.mul_right_comm, Nat.mul_comm count]

theorem le_roundedUnits {bound : Nat} (hden : 0 < den)
    (fits : spacing (num * unitsPerOne / den) ∣ bound) (h : bound * den ≤ num * unitsPerOne) :
    bound ≤ roundedUnits num den := by
  obtain ⟨count, rfl⟩ := fits
  rw [roundedUnits, Nat.mul_comm (spacing _) count]
  refine Nat.mul_le_mul_right _ (le_roundHalfEven (Nat.mul_pos hden (spacing_pos _)) ?_)
  rwa [← Nat.mul_assoc, Nat.mul_right_comm, Nat.mul_comm count]

theorem log2_mono {n m : Nat} (h : n ≤ m) : n.log2 ≤ m.log2 := by
  by_cases zero : n = 0
  · simp [zero]
  · exact (Nat.le_log2 (by omega)).mpr ((Nat.log2_self_le zero).trans h)

theorem roundedUnits_le_pow {k : Nat} (hden : 0 < den) (h : num * unitsPerOne ≤ 2 ^ k * den) :
    roundedUnits num den ≤ 2 ^ k := by
  refine roundedUnits_le hden (spacing_dvd_pow ?_) h
  have floor : num * unitsPerOne / den ≤ 2 ^ k := Nat.div_le_of_le_mul (by rwa [Nat.mul_comm den])
  have logs := log2_mono floor
  rwa [Nat.log2_two_pow] at logs

theorem roundedUnits_mono (hden : 0 < den) (hother : 0 < other) (h : num * other ≤ more * den) :
    roundedUnits num den ≤ roundedUnits more other := by
  have scaled : num * unitsPerOne * other ≤ more * unitsPerOne * den := by
    rw [Nat.mul_right_comm, Nat.mul_right_comm more]
    exact Nat.mul_le_mul_right _ h
  have floors := div_le_div_of_cross hden hother scaled
  have logs := log2_mono floors
  by_cases same : (num * unitsPerOne / den).log2 = (more * unitsPerOne / other).log2
  · rw [roundedUnits, roundedUnits, spacing, spacing, same]
    refine Nat.mul_le_mul_right _ (roundHalfEven_mono ?_ ?_ ?_)
    · exact Nat.mul_pos hden (spacing_pos _)
    · exact Nat.mul_pos hother (spacing_pos _)
    · rw [← Nat.mul_assoc, ← Nat.mul_assoc]
      exact Nat.mul_le_mul_right _ scaled
  · -- A power of two lies between, and both are rounded to multiples of parts of it.
    have nonzero : more * unitsPerOne / other ≠ 0 := by
      intro zero
      rw [zero] at logs same
      exact same (Nat.le_zero.mp logs)
    have below : num * unitsPerOne / den < 2 ^ (more * unitsPerOne / other).log2 :=
      Nat.lt_log2_self.trans_le (Nat.pow_le_pow_right (by decide) (by omega))
    have above : 2 ^ (more * unitsPerOne / other).log2 ≤ more * unitsPerOne / other :=
      Nat.log2_self_le nonzero
    calc roundedUnits num den ≤ 2 ^ (more * unitsPerOne / other).log2 :=
          roundedUnits_le_pow hden ((Nat.div_lt_iff_lt_mul hden).mp below).le
      _ ≤ roundedUnits more other :=
          le_roundedUnits hother (spacing_dvd_pow le_rfl) ((Nat.le_div_iff_mul_le hother).mp above)

theorem roundedUnits_congr (hden : 0 < den) (hother : 0 < other) (h : num * other = more * den) :
    roundedUnits num den = roundedUnits more other :=
  Nat.le_antisymm (roundedUnits_mono hden hother h.le) (roundedUnits_mono hother hden h.ge)

theorem spacing_of_log2 {floor s : Nat} (h : floor.log2 = 52 + s) : spacing floor = 2 ^ s := by
  have exponent : 52 + s + 1 - 53 = s := by omega
  rw [spacing, h, exponent]
  rfl

/-- A quotient is rounded to at most a double with 53 significant bits exactly if it is below the
middle between this double and the next, or in the middle if this one is even. -/
theorem roundedUnits_le_iff {m s : Nat} (low : 2 ^ 52 ≤ m) (high : m < 2 ^ 53) (hden : 0 < den) :
    roundedUnits num den ≤ m * 2 ^ s ↔
      2 * (num * unitsPerOne) < (2 * m + 1) * (den * 2 ^ s) ∨
        2 * (num * unitsPerOne) = (2 * m + 1) * (den * 2 ^ s) ∧ m % 2 = 0 := by
  have unit : 0 < 2 ^ s := Nat.pow_pos (by decide)
  have bottom : 2 ^ (52 + s) ≤ m * 2 ^ s := by
    rw [Nat.pow_add]
    exact Nat.mul_le_mul_right _ low
  have top : (m + 1) * 2 ^ s ≤ 2 ^ (53 + s) := by
    rw [Nat.pow_add]
    exact Nat.mul_le_mul_right _ high
  have middle : (2 * m + 1) * (den * 2 ^ s) = 2 * (den * (m * 2 ^ s)) + den * 2 ^ s := by ring
  have next : den * ((m + 1) * 2 ^ s) = den * (m * 2 ^ s) + den * 2 ^ s := by ring
  have width : 0 < den * 2 ^ s := Nat.mul_pos hden unit
  rcases Nat.lt_trichotomy (num * unitsPerOne / den).log2 (52 + s) with less | same | more
  · -- The quotient lies in a lower binade, and so does what it is rounded to.
    have below : num * unitsPerOne < 2 ^ (52 + s) * den := by
      rw [← Nat.div_lt_iff_lt_mul hden]
      exact Nat.lt_log2_self.trans_le (Nat.pow_le_pow_right (by decide) less)
    have small : num * unitsPerOne < den * (m * 2 ^ s) := by
      rw [Nat.mul_comm den]
      exact below.trans_le (Nat.mul_le_mul_right den bottom)
    refine iff_of_true ?_ (.inl (by omega))
    exact (roundedUnits_le_pow hden below.le).trans bottom
  · rw [roundedUnits, spacing_of_log2 same, Nat.mul_le_mul_right_iff unit]
    exact roundHalfEven_le_iff width
  · have nonzero : num * unitsPerOne / den ≠ 0 := by
      intro zero
      simp [zero] at more
    have above := Nat.log2_self_le nonzero
    have past : 2 ^ (53 + s) ≤ 2 ^ (num * unitsPerOne / den).log2 :=
      Nat.pow_le_pow_right (by decide) (by omega)
    have large : den * ((m + 1) * 2 ^ s) ≤ num * unitsPerOne := by
      rw [Nat.mul_comm den, ← Nat.le_div_iff_mul_le hden]
      exact (top.trans past).trans above
    refine iff_of_false (Nat.not_le.mpr ?_) (by omega)
    calc m * 2 ^ s < (m + 1) * 2 ^ s := Nat.mul_lt_mul_of_pos_right (Nat.lt_succ_self m) unit
      _ ≤ 2 ^ (num * unitsPerOne / den).log2 := top.trans past
      _ ≤ roundedUnits num den :=
        le_roundedUnits hden (spacing_dvd_pow le_rfl) ((Nat.le_div_iff_mul_le hden).mp above)

theorem lt_roundedUnits_iff {m s : Nat} (low : 2 ^ 52 ≤ m) (high : m < 2 ^ 53) (hden : 0 < den) :
    m * 2 ^ s < roundedUnits num den ↔
      (2 * m + 1) * (den * 2 ^ s) < 2 * (num * unitsPerOne) ∨
        2 * (num * unitsPerOne) = (2 * m + 1) * (den * 2 ^ s) ∧ m % 2 = 1 := by
  rw [← Nat.not_le, roundedUnits_le_iff low high hden]
  omega

/-- The least whole number that is too large for a double: it lies in the middle between the
largest double and the number that would be the next. -/
def tooLarge : Nat := (2 * (2 ^ 53 - 1) + 1) * Nat.pow 2 970

theorem roundedUnits_lt_limit_iff (hden : 0 < den) :
    roundedUnits num den < limit ↔ num < tooLarge * den := by
  constructor
  · intro fits
    by_contra large
    have up : roundedUnits tooLarge 1 ≤ roundedUnits num den :=
      roundedUnits_mono Nat.one_pos hden (by omega)
    have first : limit ≤ roundedUnits tooLarge 1 := by decide +kernel
    omega
  · intro small
    have room : (2 ^ 53 - 1) * 2 ^ 2045 < limit := by decide +kernel
    refine Nat.lt_of_le_of_lt ((roundedUnits_le_iff (by decide) (by decide) hden).mpr ?_) room
    refine .inl ?_
    have scale : tooLarge * (2 * unitsPerOne) = (2 * (2 ^ 53 - 1) + 1) * 2 ^ 2045 := by
      decide +kernel
    have unit : 0 < 2 * unitsPerOne := by decide +kernel
    calc 2 * (num * unitsPerOne) = num * (2 * unitsPerOne) := Nat.mul_left_comm ..
      _ < tooLarge * den * (2 * unitsPerOne) := Nat.mul_lt_mul_of_pos_right small unit
      _ = tooLarge * (2 * unitsPerOne) * den := Nat.mul_right_comm ..
      _ = (2 * (2 ^ 53 - 1) + 1) * (den * 2 ^ 2045) := by
        rw [scale, Nat.mul_assoc, Nat.mul_comm den]

def topPower : Nat := Nat.pow 2 1023

theorem roundedUnits_lt_limit (hden : 0 < den) (h : num ≤ topPower * den) :
    roundedUnits num den < limit := by
  have power : topPower < tooLarge := by decide +kernel
  exact (roundedUnits_lt_limit_iff hden).mpr
    (h.trans_lt (Nat.mul_lt_mul_of_pos_right power hden))

theorem ofQuotient_cases (negative : Bool) (num den : Nat) :
    roundedUnits num den < limit ∧
        ofQuotient negative num den = finite negative (roundedUnits num den) ∨
      ¬roundedUnits num den < limit ∧ ofQuotient negative num den = infinite negative := by
  unfold ofQuotient
  generalize limit = bound
  by_cases fits : roundedUnits num den < bound
  · exact .inl ⟨fits, if_pos fits⟩
  · exact .inr ⟨fits, if_neg fits⟩

theorem quotient?_eq_some_iff {x y : Int} (hx : 0 ≤ x) (hy : 0 ≤ y) {z : Binary64} :
    quotient? x y = some z ↔ roundedUnits x.natAbs y.natAbs < limit ∧
      z = finite false (roundedUnits x.natAbs y.natAbs) := by
  rw [quotient?, decide_eq_false hx.not_gt, decide_eq_false hy.not_gt, bne_self_eq_false]
  rcases ofQuotient_cases false x.natAbs y.natAbs with ⟨fits, made⟩ | ⟨fits, made⟩
  · rw [made, finite?, Option.some.injEq, eq_comm]
    exact (and_iff_right fits).symm
  · rw [made]
    constructor
    · intro absent
      cases absent
    · intro present
      exact absurd present.1 fits

def nearest? (q : ℚ) : Option Binary64 := quotient? q.num q.den

theorem nearest?_eq_some_iff {q : ℚ} (h : 0 ≤ q) {x : Binary64} :
    nearest? q = some x ↔ roundedUnits q.num.natAbs q.den < limit ∧
      x = finite false (roundedUnits q.num.natAbs q.den) :=
  quotient?_eq_some_iff (Rat.num_nonneg.mpr h) (Int.natCast_nonneg _)

theorem cross_num_den (x : Int) {y : Int} (h : 0 < y) :
    x * ((x : ℚ) / y).den = ((x : ℚ) / y).num * y := by
  have nonzero : (y : ℚ) ≠ 0 := by exact_mod_cast h.ne'
  have parts : (x : ℚ) / y = ((x : ℚ) / y).num / ((x : ℚ) / y).den := (Rat.num_div_den _).symm
  have positive : (((x : ℚ) / y).den : ℚ) ≠ 0 := by exact_mod_cast ((x : ℚ) / y).den_nz
  rw [div_eq_div_iff nonzero positive] at parts
  exact_mod_cast parts

theorem quotient?_eq_nearest? {x y : Int} (hx : 0 ≤ x) (hy : 0 < y) :
    quotient? x y = nearest? ((x : ℚ) / y) := by
  have exact : 0 ≤ (x : ℚ) / y := by positivity
  have units : roundedUnits x.natAbs y.natAbs =
      roundedUnits ((x : ℚ) / y).num.natAbs ((x : ℚ) / y).den := by
    refine roundedUnits_congr (Int.natAbs_pos.mpr hy.ne') (Rat.den_pos _) ?_
    have cross := congrArg Int.natAbs (cross_num_den x hy)
    rwa [Int.natAbs_mul, Int.natAbs_mul, Int.natAbs_natCast] at cross
  ext z
  rw [quotient?_eq_some_iff hx hy.le, nearest?_eq_some_iff exact, units]

def AtMost : Binary64 → Binary64 → Prop
  | finite n u, finite m v => signedUnits n u ≤ signedUnits m v
  | _, _ => False

theorem AtMost.less_of_less {x y z : Binary64} (h : y.AtMost z) (above : x.less y = true) :
    x.less z = true := by
  cases x <;> cases y <;> cases z <;> simp_all [AtMost, less]
  omega

theorem nearest?_mono {p q : ℚ} (hp : 0 ≤ p) (h : p ≤ q) {x y : Binary64}
    (first : nearest? p = some x) (second : nearest? q = some y) : x.AtMost y := by
  obtain ⟨-, rfl⟩ := (nearest?_eq_some_iff hp).mp first
  obtain ⟨-, rfl⟩ := (nearest?_eq_some_iff (hp.trans h)).mp second
  have units : roundedUnits p.num.natAbs p.den ≤ roundedUnits q.num.natAbs q.den := by
    refine roundedUnits_mono p.den_pos q.den_pos ?_
    have cross : p.num * q.den ≤ q.num * p.den := Rat.le_iff p q |>.mp h
    have first := Rat.num_nonneg.mpr hp
    have second := Rat.num_nonneg.mpr (hp.trans h)
    zify
    rwa [abs_of_nonneg first, abs_of_nonneg second]
  simpa [AtMost, signedUnits] using units

theorem num_le_mul_den {q : ℚ} (h : 0 ≤ q) {bound : Nat} (small : q ≤ bound) :
    q.num.natAbs ≤ bound * q.den := by
  have den : (0 : ℚ) < q.den := by exact_mod_cast q.den_pos
  have whole : ((q.num.natAbs : Int) : ℚ) = q.num := by
    rw [Int.natAbs_of_nonneg (Rat.num_nonneg.mpr h)]
  have scaled : (q.num : ℚ) ≤ bound * q.den := by
    rwa [← div_le_iff₀ den, Rat.num_div_den]
  rw [← whole] at scaled
  exact_mod_cast scaled

theorem exists_nearest? {q : ℚ} (h : 0 ≤ q) (small : q ≤ topPower) : ∃ x, nearest? q = some x :=
  ⟨_, (nearest?_eq_some_iff h).mpr
    ⟨roundedUnits_lt_limit q.den_pos (num_le_mul_den h small), rfl⟩⟩

end Binary64
end IndexCoverage
