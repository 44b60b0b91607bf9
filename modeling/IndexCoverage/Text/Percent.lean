import IndexCoverage.Text.Encoding

/-! Text in which a percent sign and two hexadecimal digits stand for a byte of its
UTF-8 form. A percent sign that no two digits follow is itself. -/

namespace IndexCoverage.Text

def percentSign : CodePoint := .char '%'

def escapedByte? : Text → Option UInt8
  | high :: low :: _ => do
    return UInt8.ofNat ((← high.digitIn? 16) * 16 + (← low.digitIn? 16))
  | _ => none

/-- The bytes of a text from after the next `skip` code points on. -/
def percentBytesAfter (skip : Nat) : Text → Bytes
  | [] => []
  | c :: rest =>
    match skip with
    | skip + 1 => percentBytesAfter skip rest
    | 0 =>
      match if c = percentSign then escapedByte? rest else none with
      | some byte => byte :: percentBytesAfter 2 rest
      | none => utf8OfPoint c ++ percentBytesAfter 0 rest

def percentBytes (s : Text) : Bytes := percentBytesAfter 0 s

end IndexCoverage.Text
