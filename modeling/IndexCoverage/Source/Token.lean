import IndexCoverage.Text.Encoding

/-! The tokens that source bytes are divided into, whatever the language, and
how far each kind of token reaches. A span is a beginning of the input: what is
taken and what is left make up the input again. -/

namespace IndexCoverage.Source

def slash : UInt8 := 47
def star : UInt8 := 42
def newline : UInt8 := 10
def backslash : UInt8 := 92
def doubleQuote : UInt8 := 34
def singleQuote : UInt8 := 39
def backtick : UInt8 := 96

inductive Kind where
  | text
  | comment
  | string
  | char
  | rawString
  deriving DecidableEq

/-- `closed` is false of a comment or literal that lacks its end. -/
structure Token where
  kind : Kind
  bytes : Bytes
  closed : Bool
  deriving DecidableEq

structure Span where
  taken : Bytes
  closed : Bool
  rest : Bytes

namespace Span

def push (b : UInt8) (span : Span) : Span := { span with taken := b :: span.taken }

def line : Bytes → Span
  | [] => ⟨[], true, []⟩
  | b :: rest => if b = newline then ⟨[], true, b :: rest⟩ else (line rest).push b

def block : Bytes → Span
  | [] => ⟨[], false, []⟩
  | b :: rest =>
    if b = star ∧ rest.head? = some slash then ⟨[b, slash], true, rest.tail⟩
    else (block rest).push b

/-- Through the next `quote` that no backslash escapes; a newline ends the
literal, and no backslash escapes it. -/
def quoted (quote : UInt8) : Bytes → Span
  | [] => ⟨[], false, []⟩
  | b :: rest =>
    if b = quote then ⟨[b], true, rest⟩
    else if b = newline then ⟨[], false, b :: rest⟩
    else if b = backslash then
      match rest with
      | [] => ⟨[b], false, []⟩
      | c :: rest =>
        if c = newline then ⟨[b], false, c :: rest⟩
        else ((quoted quote rest).push c).push b
    else (quoted quote rest).push b

def raw (mark : UInt8) : Bytes → Span
  | [] => ⟨[], false, []⟩
  | b :: rest => if b = mark then ⟨[b], true, rest⟩ else (raw mark rest).push b

@[simp] theorem push_taken (b : UInt8) (span : Span) : (span.push b).taken = b :: span.taken := rfl
@[simp] theorem push_rest (b : UInt8) (span : Span) : (span.push b).rest = span.rest := rfl
@[simp] theorem push_closed (b : UInt8) (span : Span) : (span.push b).closed = span.closed := rfl

theorem line_append (input : Bytes) : (line input).taken ++ (line input).rest = input := by
  induction input with
  | nil => rfl
  | cons b rest ih => rw [line]; split <;> simp [ih]

theorem block_append (input : Bytes) : (block input).taken ++ (block input).rest = input := by
  induction input with
  | nil => rfl
  | cons b rest ih =>
    rw [block]
    split
    · next ends =>
      obtain ⟨rfl, ends⟩ := ends
      cases rest with
      | nil => simp at ends
      | cons c rest => simp_all
    · simp [ih]

theorem quoted_append (quote : UInt8) (input : Bytes) :
    (quoted quote input).taken ++ (quoted quote input).rest = input := by
  fun_induction quoted quote input <;> simp_all

theorem raw_append (mark : UInt8) (input : Bytes) :
    (raw mark input).taken ++ (raw mark input).rest = input := by
  induction input with
  | nil => rfl
  | cons b rest ih => rw [raw]; split <;> simp [ih]

end Span
end IndexCoverage.Source
