import IndexCoverage.Number.Binary64

/-! Scores: quotients of counts, and the value that stands for a quotient by zero. -/

namespace IndexCoverage

/-- A number as it is given: a whole one of any size, or a double. -/
inductive Amount where
  | whole (n : Int)
  | real (x : Binary64)
  deriving DecidableEq

inductive ScoreError where
  | overflow
  deriving DecidableEq

def Amount.isZero : Amount → Bool
  | whole n => n = 0
  | real x => x.isZero

def Amount.toReal : Amount → Except ScoreError Binary64
  | whole n =>
    match Binary64.ofInt? n with
    | some x => .ok x
    | none => .error .overflow
  | real x => .ok x

/-- The quotient of two whole numbers of which the second is not zero, correctly rounded. -/
def ratio (x y : Int) : Except ScoreError Binary64 :=
  (Binary64.quotient? x y).elim (.error .overflow) .ok

def divideOr (sentinel x y : Amount) : Except ScoreError Amount :=
  if y.isZero then .ok sentinel
  else
    match x, y with
    | .whole n, .whole m => (ratio n m).map .real
    | x, y => do
      let x ← x.toReal
      let y ← y.toReal
      return .real (x.div y)

def noScore : Binary64 := .finite true Binary64.unitsPerOne

def score (part all : Int) : Except ScoreError Binary64 := do
  (← divideOr (.real noScore) (.whole part) (.whole all)).toReal

theorem divideOr_whole {sentinel : Amount} {part all : Int} (h : all ≠ 0) :
    divideOr sentinel (.whole part) (.whole all) = (ratio part all).map .real := by
  unfold divideOr
  rw [if_neg (by simp [Amount.isZero, h])]

theorem score_zero (part : Int) : score part 0 = .ok noScore := rfl

theorem score_of_ne_zero {part all : Int} (h : all ≠ 0) : score part all = ratio part all := by
  rw [score, divideOr_whole h]
  cases ratio part all <;> rfl

end IndexCoverage
