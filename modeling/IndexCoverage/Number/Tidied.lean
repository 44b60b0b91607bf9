import IndexCoverage.Number.Numeral

/-! Integers in strings. A bare one is perhaps a minus sign and ASCII digits
without a needless zero in front. Any other string is tidied first: white space
around it, a sign, leading zeros, a fraction of zeros and single underscores go,
and what is left has to be bare. Only a bare integer can be found too long. -/

namespace IndexCoverage.Numeral

def isPadding (c : CodePoint) : Bool :=
  let n := c.value
  (9 ≤ n && n ≤ 13) || n = 32 || n = 0x85 || n = 0xA0 || n = 0x1680 ||
    (0x2000 ≤ n && n ≤ 0x200A) || n = 0x2028 || n = 0x2029 || n = 0x202F || n = 0x205F ||
    n = 0x3000

def bare (s : Text) : Except NumeralError Int :=
  let (negative, unsigned) := match s with
    | .char '-' :: rest => (true, rest)
    | s => (false, s)
  match digitRun unsigned with
  | ([], _) => .error .malformed
  | (0 :: more, rest) => if more.isEmpty && rest.isEmpty then .ok 0 else .error .malformed
  | (digits, rest) =>
    if maxDigits < digits.length + negative.toNat then .error .tooLong
    else if !rest.isEmpty then .error .malformed
    else
      let n := valueOf 10 digits
      .ok (if negative then -(n : Int) else n)

/-- Without zeros and underscores in front; the one before a point, or the last one, stays. -/
def dropZeros? (before : CodePoint) : Text → Option Text
  | [] => some [before]
  | c :: rest =>
    if c = .char '0' || c = .char '_' then dropZeros? c rest
    else if c = .char '.' then some (before :: c :: rest)
    else if c = .char '-' || c.isAsciiDigit then some (c :: rest)
    else none

def fromFirstDigit? : Text → Option Text
  | [] => none
  | c :: rest =>
    if c = .char '0' then dropZeros? c rest else if c.isAsciiDigit then some (c :: rest) else none

def dropZeroFraction (s : Text) : Text :=
  match Text.cut (.char '.') s with
  | (whole, some zeros) =>
    if !zeros.isEmpty && zeros.all (· = .char '0') then whole else s
  | _ => s

def joinGroups? (s : Text) : Option Text :=
  let groups := Text.splitOn (.char '_') s
  if 1 < groups.length && groups.any List.isEmpty then none else some groups.flatten

def tidy? (s : Text) : Option Text := do
  let (negative, unsigned) := sign (Text.dropEndWhile isPadding (s.dropWhile isPadding))
  let digits ← joinGroups? (dropZeroFraction (← fromFirstDigit? unsigned))
  return if negative then CodePoint.char '-' :: digits else digits

def tidied (s : Text) : Except NumeralError Int :=
  match bare s with
  | .error .malformed =>
    match (tidy? s).map bare with
    | some (.ok n) => .ok n
    | _ => .error .malformed
  | found => found

end IndexCoverage.Numeral
