import IndexCoverage.Text.CodePoint

/-! Double precision numbers, exactly. A finite one is a sign and a natural
number of units of `2 ^ -1074`, so that quotients are rounded and compared in
`Nat` and `Int`. Rounding goes to the nearest of the numbers with 53 significant
bits, a tie to the even one. -/

namespace IndexCoverage

inductive Binary64 where
  | finite (negative : Bool) (units : Nat)
  | infinite (negative : Bool)
  | nan
  deriving DecidableEq

def roundHalfEven (num den : Nat) : Nat :=
  let floor := num / den
  let twice := 2 * (num % den)
  if den < twice ∨ (twice = den ∧ floor % 2 = 1) then floor + 1 else floor

namespace Binary64

def unitsPerOne : Nat := Nat.pow 2 1074

def limit : Nat := Nat.pow 2 2098

def spacing (floor : Nat) : Nat := Nat.pow 2 (Nat.log2 floor + 1 - 53)

def roundedUnits (num den : Nat) : Nat :=
  let scaled := num * unitsPerOne
  let step := spacing (scaled / den)
  roundHalfEven scaled (den * step) * step

def ofQuotient (negative : Bool) (num den : Nat) : Binary64 :=
  let units := roundedUnits num den
  if units < limit then finite negative units else infinite negative

def ofUnits (negative : Bool) (units : Nat) : Binary64 := ofQuotient negative units unitsPerOne

def finite? : Binary64 → Option Binary64
  | finite negative units => some (finite negative units)
  | _ => none

def ofInt? (n : Int) : Option Binary64 := (ofQuotient (n < 0) n.natAbs 1).finite?

def quotient? (x y : Int) : Option Binary64 :=
  (ofQuotient ((x < 0) != (y < 0)) x.natAbs y.natAbs).finite?

def isZero : Binary64 → Bool
  | finite _ units => units = 0
  | _ => false

def isNegative : Binary64 → Bool
  | finite negative _ => negative
  | infinite negative => negative
  | nan => false

def signedUnits (negative : Bool) (units : Nat) : Int := if negative then -units else units

def less : Binary64 → Binary64 → Bool
  | finite n u, finite m v => signedUnits n u < signedUnits m v
  | finite _ _, infinite m => !m
  | infinite n, finite _ _ => n
  | infinite n, infinite m => n && !m
  | _, _ => false

def neg : Binary64 → Binary64
  | finite n u => finite (!n) u
  | infinite n => infinite (!n)
  | nan => nan

def div : Binary64 → Binary64 → Binary64
  | finite n u, finite m v =>
    if v = 0 then
      if u = 0 then nan else infinite (n != m)
    else ofQuotient (n != m) u v
  | finite n _, infinite m => finite (n != m) 0
  | infinite n, finite m _ => infinite (n != m)
  | _, _ => nan

def mul : Binary64 → Binary64 → Binary64
  | finite n u, finite m v => ofQuotient (n != m) (u * v) (unitsPerOne * unitsPerOne)
  | nan, _ => nan
  | _, nan => nan
  | x, y =>
    if x.isZero || y.isZero then nan else infinite (x.isNegative != y.isNegative)

def add : Binary64 → Binary64 → Binary64
  | finite n u, finite m v =>
    let sum := signedUnits n u + signedUnits m v
    if sum = 0 then finite (n && m) 0 else ofUnits (sum < 0) sum.natAbs
  | nan, _ => nan
  | _, nan => nan
  | infinite n, infinite m => if n = m then infinite n else nan
  | infinite n, _ => infinite n
  | _, infinite m => infinite m

/-- The number nearest to `digits * 10 ^ exponent`. Exponents beyond the range
give zero or infinity at once; `2 ^ -1075` and `2 ^ 1024` lie well inside it. -/
def ofDecimal (negative : Bool) (digits : Nat) (exponent : Int) : Binary64 :=
  if digits = 0 then finite negative 0
  else
    let magnitude := exponent + ((Nat.log2 digits / 3 + 1 : Nat) : Int)
    if 400 < exponent then infinite negative
    else if magnitude < -400 then finite negative 0
    else
      match exponent with
      | .ofNat e => ofQuotient negative (digits * Nat.pow 10 e) 1
      | .negSucc e => ofQuotient negative digits (Nat.pow 10 (e + 1))

end Binary64
end IndexCoverage
