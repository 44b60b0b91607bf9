import IndexCoverage.Log.Record
import IndexCoverage.Source.Scan

/-! Counting lines of code: the lines that hold something besides comments and
white space. White space is that of ASCII and the bytes 0x85 and 0xA0. -/

namespace IndexCoverage.Source

def isBlankByte (b : UInt8) : Bool :=
  b = 32 || (9 ≤ b && b ≤ 13) || b = 0x85 || b = 0xA0

def lines : Bytes → List Bytes
  | [] => [[]]
  | b :: rest =>
    if b = newline then [] :: lines rest
    else
      match lines rest with
      | [] => [[b]]
      | line :: more => (b :: line) :: more

def isCode (line : Bytes) : Bool := line.any (!isBlankByte ·)

def countLines (input : Bytes) : Nat := (lines (strip input)).countP isCode

def measure {ε : Type} (source : Text) (input : Bytes) : Logged ε Nat := do
  for (offset, fault) in faults input do
    Logged.note "inventory" .debug (Text.join
      ["Tokenizer error in ", source, " at offset ", Text.ofNat offset, ": ", fault.message])
  return countLines input

end IndexCoverage.Source
