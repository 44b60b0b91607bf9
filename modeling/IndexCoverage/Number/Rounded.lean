import IndexCoverage.Number.Shortest

/-! Doubles with as many digits as are asked for: a count of decimal places, or of
significant digits. Rounding is exact, a tie goes to the even digit. Where no digit
follows the point, it is left out unless `keep` says that it stays. -/

namespace IndexCoverage.Binary64

def pointed (keep : Bool) (digits : List Char) (whole : Nat) : List Char :=
  let fraction := digits.drop whole
  digits.take whole ++ (if fraction.isEmpty && !keep then [] else '.' :: fraction)

def fixed (keep : Bool) (places units : Nat) : List Char :=
  let digits := Nat.toDigits 10 (roundHalfEven (units * Nat.pow 10 places) unitsPerOne)
  let digits := List.replicate (places + 1 - digits.length) '0' ++ digits
  pointed keep digits (digits.length - places)

/-- The first `count` digits of a number of units, rounded, and the exponent of the
first of them. Zero is all zeros. -/
def significant (count units : Nat) : List Char × Int :=
  if units = 0 then (List.replicate count '0', 0)
  else
    let leading := leadingExponent units
    let last := leading - count + 1
    let scale := Nat.pow 10 last.natAbs
    let rounded :=
      if 0 ≤ last then roundHalfEven units (unitsPerOne * scale)
      else roundHalfEven (units * scale) unitsPerOne
    let digits := Nat.toDigits 10 rounded
    (digits.take count, leading + digits.length - count)

def withExponent (keep : Bool) (places units : Nat) : List Char :=
  let (digits, exponent) := significant (places + 1) units
  pointed keep digits 1 ++ exponentText exponent

def dropEndZeros : List Char → List Char
  | [] => []
  | digit :: rest => digit :: (rest.reverse.dropWhile (· = '0')).reverse

/-- A number of units with a count of significant digits: with an exponent if it is
below -4 or not below the count. Zeros at the end go unless the point stays. -/
def general (keep : Bool) (count units : Nat) : List Char :=
  let count := max count 1
  let (digits, exponent) := significant count units
  let digits := if keep then digits else dropEndZeros digits
  if exponent < -4 ∨ count ≤ exponent then pointed keep digits 1 ++ exponentText exponent
  else if exponent < 0 then
    '0' :: '.' :: List.replicate (exponent.natAbs - 1) '0' ++ digits
  else
    let whole := exponent.toNat + 1
    pointed keep (digits ++ List.replicate (whole - digits.length) '0') whole

end IndexCoverage.Binary64
