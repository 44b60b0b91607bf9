import IndexCoverage.Proofs.Source.Opening

/-! The faults of tokens by the offset at which the first token starts, and how many
bytes of comments there are before an offset. -/

namespace IndexCoverage.Source

def inComment (tokens : List Token) : List Bool :=
  tokens.flatMap fun token => List.replicate token.bytes.length (token.kind = .comment)

def commentsBefore (tokens : List Token) (offset : Nat) : Nat :=
  ((inComment tokens).take offset).count true

@[simp] theorem commentsBefore_zero (tokens : List Token) : commentsBefore tokens 0 = 0 := by
  simp [commentsBefore]

theorem commentsBefore_le (tokens : List Token) (offset : Nat) :
    commentsBefore tokens offset ≤ offset :=
  Nat.le_trans List.count_le_length (List.length_take_le _ _)

theorem commentsBefore_cons (token : Token) (rest : List Token) (offset : Nat) :
    commentsBefore (token :: rest) (offset + token.bytes.length) =
      (if token.kind = .comment then token.bytes.length else 0) + commentsBefore rest offset := by
  have whole :=
    List.length_replicate (n := token.bytes.length) (a := decide (token.kind = .comment))
  rw [commentsBefore, inComment, List.flatMap_cons, List.take_append, whole,
    Nat.add_sub_cancel, List.take_of_length_le (by omega), List.count_append,
    List.count_replicate]
  simp [commentsBefore, inComment]

def faultsFrom (offset : Nat) (tokens : List Token) : List (Nat × Fault) :=
  (placed offset tokens).filterMap fun (offset, token) => token.fault?.map (offset, ·)

theorem faultsFrom_cons (offset : Nat) (token : Token) (rest : List Token) :
    faultsFrom offset (token :: rest) =
      (token.fault?.map (offset, ·)).toList ++ faultsFrom (offset + token.bytes.length) rest := by
  cases h : token.fault? <;> simp [faultsFrom, placed, h]

theorem Token.filter_fault? (token : Token) (place : Nat) :
    (token.fault?.map (place, ·)).toList.filter (·.2 = .openLiteral) =
      if token.kind = .comment then [] else (token.fault?.map (place, ·)).toList := by
  by_cases isComment : token.kind = .comment <;>
    cases closed : token.closed <;> simp [fault?, isComment, closed]

theorem faultsFrom_add (offset width : Nat) (tokens : List Token) :
    faultsFrom (offset + width) tokens =
      (faultsFrom offset tokens).map fun (place, fault) => (place + width, fault) := by
  induction tokens generalizing offset with
  | nil => rfl
  | cons token rest ih =>
    have swap : offset + width + token.bytes.length = offset + token.bytes.length + width := by
      omega
    rw [faultsFrom_cons, faultsFrom_cons, swap, ih]
    cases h : token.fault? <;> simp

def TextClosed (tokens : List Token) : Prop := ∀ t ∈ tokens, t.kind = .text → t.closed = true

theorem textClosed_tokens (input : Bytes) : TextClosed (tokens input) := by
  induction input using tokens_induction with
  | nil => simp [TextClosed]
  | opening input kind span begins ih =>
    rw [begins.tokens_eq]
    rintro token (_ | ⟨_, h⟩) isText
    · exact absurd isText begins.kind_ne_text
    · exact ih token h isText
  | text input nonempty notOpen ih =>
    rw [tokens_of_text nonempty notOpen]
    rintro token (_ | ⟨_, h⟩) isText
    · rfl
    · exact ih token h isText

end IndexCoverage.Source
