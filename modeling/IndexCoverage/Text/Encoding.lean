import IndexCoverage.Text.CodePoint

/-! Bytes as text, in UTF-8, UTF-16 and UTF-32, and text as UTF-8. A decoder
either refuses surrogates or keeps each one as a code point of its own; every
other malformed sequence makes it fail. -/

namespace IndexCoverage

abbrev Bytes := List UInt8

namespace Text

def scalar? (keepLone : Bool) (n : Nat) : Option CodePoint :=
  match CodePoint.ofNat? n with
  | some (.lone half) => if keepLone then some (.lone half) else none
  | other => other

/-- UTF-8 from the middle of a sequence: `need` more bytes belong to it, `value`
is what it says so far and `least` what it has to say at least. -/
def readUtf8 (keepLone : Bool) (need value least : Nat) : Bytes → Option Text
  | [] => if need = 0 then some [] else none
  | byte :: rest =>
    let b := byte.toNat
    if need = 0 then
      if b < 0x80 then
        (readUtf8 keepLone 0 0 0 rest).map (CodePoint.char (Char.ofNat b) :: ·)
      else if b < 0xC2 then none
      else if b < 0xE0 then readUtf8 keepLone 1 (b - 0xC0) 0x80 rest
      else if b < 0xF0 then readUtf8 keepLone 2 (b - 0xE0) 0x800 rest
      else if b < 0xF5 then readUtf8 keepLone 3 (b - 0xF0) 0x10000 rest
      else none
    else if 0x80 ≤ b ∧ b < 0xC0 then
      let value := value * 64 + (b - 0x80)
      if need = 1 then
        if value < least then none
        else
          match scalar? keepLone value with
          | some c => (readUtf8 keepLone 0 0 0 rest).map (c :: ·)
          | none => none
      else readUtf8 keepLone (need - 1) value least rest
    else none

def ofUtf8? (keepLone : Bool) (bytes : Bytes) : Option Text := readUtf8 keepLone 0 0 0 bytes

inductive ByteOrder where
  | big
  | little

def ByteOrder.unit16 : ByteOrder → UInt8 → UInt8 → Nat
  | big, a, b => a.toNat * 256 + b.toNat
  | little, a, b => b.toNat * 256 + a.toNat

def ByteOrder.unit32 (order : ByteOrder) (a b c d : UInt8) : Nat :=
  match order with
  | big => order.unit16 a b * 65536 + order.unit16 c d
  | little => order.unit16 c d * 65536 + order.unit16 a b

def units16? (order : ByteOrder) : Bytes → Option (List Nat)
  | [] => some []
  | [_] => none
  | a :: b :: rest => (units16? order rest).map (order.unit16 a b :: ·)

/-- A high unit followed by a low one is one code point; any other surrogate stands alone. -/
def ofUnits16 : List Nat → Text
  | [] => []
  | [unit] => (CodePoint.ofNat? unit).toList
  | high :: low :: rest =>
    if 0xD800 ≤ high ∧ high < 0xDC00 ∧ 0xDC00 ≤ low ∧ low < 0xE000 then
      let joined := 0x10000 + (high - 0xD800) * 0x400 + (low - 0xDC00)
      (CodePoint.ofNat? joined).toList ++ ofUnits16 rest
    else
      (CodePoint.ofNat? high).toList ++ ofUnits16 (low :: rest)

def ofUtf16? (order : ByteOrder) (bytes : Bytes) : Option Text :=
  (units16? order bytes).map ofUnits16

def ofUtf32? (order : ByteOrder) : Bytes → Option Text
  | [] => some []
  | a :: b :: c :: d :: rest => do
    let point ← CodePoint.ofNat? (order.unit32 a b c d)
    let text ← ofUtf32? order rest
    some (point :: text)
  | _ => none

def utf8OfPoint (c : CodePoint) : Bytes :=
  let n := c.value
  let tail (shift : Nat) : UInt8 := UInt8.ofNat (0x80 + n / shift % 64)
  if n < 0x80 then [UInt8.ofNat n]
  else if n < 0x800 then [UInt8.ofNat (0xC0 + n / 64), tail 1]
  else if n < 0x10000 then [UInt8.ofNat (0xE0 + n / 4096), tail 64, tail 1]
  else [UInt8.ofNat (0xF0 + n / 262144), tail 4096, tail 64, tail 1]

def isEncodable (s : Text) : Bool := s.all fun c => c matches .char _

def toUtf8 (s : Text) : Bytes := s.flatMap utf8OfPoint

/-- A document's text in whichever of the encodings its first bytes show: a byte
order mark, or the place of the zero bytes that its first, ASCII, character brings. -/
def ofMarkedBytes? (bytes : Bytes) : Option Text :=
  match bytes with
  | 0x00 :: 0x00 :: 0xFE :: 0xFF :: rest => ofUtf32? .big rest
  | 0xFF :: 0xFE :: 0x00 :: 0x00 :: rest => ofUtf32? .little rest
  | 0xFE :: 0xFF :: rest => ofUtf16? .big rest
  | 0xFF :: 0xFE :: rest => ofUtf16? .little rest
  | 0xEF :: 0xBB :: 0xBF :: rest => ofUtf8? true rest
  | a :: b :: c :: d :: _ =>
    if a = 0 then
      if b = 0 then ofUtf32? .big bytes else ofUtf16? .big bytes
    else if b = 0 then
      if c = 0 ∧ d = 0 then ofUtf32? .little bytes else ofUtf16? .little bytes
    else ofUtf8? true bytes
  | [a, b] =>
    if a = 0 then ofUtf16? .big bytes
    else if b = 0 then ofUtf16? .little bytes
    else ofUtf8? true bytes
  | _ => ofUtf8? true bytes

end Text
end IndexCoverage
