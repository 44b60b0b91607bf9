import IndexCoverage.Number.Binary64

/-! The fewest decimal digits that read back as a double, and the text made of
them: positional from `0.0001` to below `10 ^ 16`, always with a point, and with
an exponent of at least two digits elsewhere. -/

namespace IndexCoverage
namespace Binary64

def digitCount (n : Nat) : Nat := (Nat.toDigits 10 n).length

/-- Four times the ends of the interval of units that rounds to `units`, and
whether the ends belong to it. -/
def roundingInterval (units : Nat) : Nat × Nat × Bool :=
  let step := spacing units
  let below := if 1 < step ∧ units = Nat.pow 2 (Nat.log2 units) then step else 2 * step
  (4 * units - below, 4 * units + 2 * step, units / step % 2 = 0)

def leadingExponent (units : Nat) : Int :=
  (digitCount (units * Nat.pow 10 400 / unitsPerOne) : Int) - 401

def readsBack (units digits : Nat) (exponent : Int) : Bool :=
  let (low, high, closed) := roundingInterval units
  let scale := Nat.pow 10 exponent.natAbs
  let point := if 0 ≤ exponent then 4 * digits * scale * unitsPerOne else 4 * digits * unitsPerOne
  let low := if 0 ≤ exponent then low else low * scale
  let high := if 0 ≤ exponent then high else high * scale
  if closed then low ≤ point && point ≤ high else low < point && point < high

/-- The nearest of the decimals with `count` digits that read back, if one does. -/
def decimal? (units count : Nat) : Option (Nat × Int) :=
  let exponent := leadingExponent units - count + 1
  let scale := Nat.pow 10 exponent.natAbs
  let num := if 0 ≤ exponent then units else units * scale
  let den := if 0 ≤ exponent then unitsPerOne * scale else unitsPerOne
  let floor := num / den
  let near := roundHalfEven num den
  let far := if near = floor then floor + 1 else floor
  if readsBack units near exponent then some (near, exponent)
  else if readsBack units far exponent then some (far, exponent)
  else none

/-- The first count of digits, at least `count`, that suffices; 17 always do. -/
def shortestFrom (units count : Nat) : Nat → Nat × Int
  | 0 => (decimal? units count).getD (0, 0)
  | more + 1 => (decimal? units count).getD (shortestFrom units (count + 1) more)

/-- Digits without zeros at the end, and where the decimal point stands before, in or after them. -/
def shortest (units : Nat) : List Char × Int :=
  let (digits, exponent) := shortestFrom units 1 16
  let written := Nat.toDigits 10 digits
  let kept := (written.reverse.dropWhile (· = '0')).reverse
  (kept, exponent + written.length)

def positional (digits : List Char) (point : Int) : List Char :=
  if point ≤ 0 then
    '0' :: '.' :: List.replicate point.natAbs '0' ++ digits
  else
    let whole := point.toNat
    if digits.length ≤ whole then
      digits ++ List.replicate (whole - digits.length) '0' ++ ['.', '0']
    else
      digits.take whole ++ '.' :: digits.drop whole

def exponentText (exponent : Int) : List Char :=
  let shown := Nat.toDigits 10 exponent.natAbs
  'e' :: (if exponent < 0 then '-' else '+') :: List.replicate (2 - shown.length) '0' ++ shown

def scientific (digits : List Char) (point : Int) : List Char :=
  let mantissa := match digits with
    | [] => []
    | [digit] => [digit]
    | digit :: rest => digit :: '.' :: rest
  mantissa ++ exponentText (point - 1)

def magnitudeText (units : Nat) : List Char :=
  if units = 0 then ['0', '.', '0']
  else
    let (digits, point) := shortest units
    if -4 < point ∧ point ≤ 16 then positional digits point else scientific digits point

def text : Binary64 → Text
  | finite negative units =>
    ((if negative then ['-'] else []) ++ magnitudeText units).map .char
  | infinite negative => if negative then "-inf" else "inf"
  | nan => "nan"

end Binary64
end IndexCoverage
