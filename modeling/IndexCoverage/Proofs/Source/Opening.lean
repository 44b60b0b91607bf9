import IndexCoverage.Source.Scan

/-! How a comment or a literal begins, case by case, and the induction that goes
with it: an input is empty, begins with a comment or a literal, or begins with text
up to the next place where one of them begins. -/

namespace IndexCoverage.Source

def Kind.quote? : Kind → Option UInt8
  | string => some doubleQuote
  | char => some singleQuote
  | _ => none

/-- The input begins with a comment or a literal of a kind, which reaches as far as a span. -/
inductive Opening : Bytes → Kind → Span → Prop where
  | line (rest : Bytes) :
      Opening (slash :: slash :: rest) .comment (((Span.line rest).push slash).push slash)
  | block (rest : Bytes) :
      Opening (slash :: star :: rest) .comment (((Span.block rest).push star).push slash)
  | quoted (kind : Kind) (quote : UInt8) (rest : Bytes) (quotes : kind.quote? = some quote) :
      Opening (quote :: rest) kind ((Span.quoted quote rest).push quote)
  | raw (rest : Bytes) :
      Opening (backtick :: rest) .rawString ((Span.raw backtick rest).push backtick)

theorem Kind.quote?_ne {kind : Kind} {quote : UInt8} (quotes : kind.quote? = some quote) :
    quote ≠ newline ∧ quote ≠ backslash ∧ quote ≠ slash ∧ quote ≠ star ∧ quote ≠ backtick := by
  cases kind <;> simp_all [Kind.quote?]
  all_goals
    subst quotes
    decide

theorem Opening.of_special? {input : Bytes} {kind : Kind} {span : Span}
    (h : special? input = some (kind, span)) : Opening input kind span := by
  revert h
  fun_cases special? input
  all_goals
    intro h
    simp_all
  all_goals
    obtain ⟨rfl, rfl⟩ := h
  · exact .line _
  · exact .block _
  · exact .quoted .string doubleQuote _ rfl
  · exact .quoted .char singleQuote _ rfl
  · exact .raw _

theorem Opening.special? {input : Bytes} {kind : Kind} {span : Span}
    (h : Opening input kind span) : special? input = some (kind, span) := by
  cases h with
  | line rest => rfl
  | block rest => rfl
  | quoted kind quote rest quotes =>
    cases kind <;> simp [Kind.quote?] at quotes
    all_goals
      subst quotes
      rfl
  | raw rest => rfl

theorem Opening.opens {input : Bytes} {kind : Kind} {span : Span}
    (h : Opening input kind span) : opens input = true := by
  rw [opens_eq_isSome, h.special?]
  rfl

theorem exists_opening {input : Bytes} (h : opens input = true) :
    ∃ kind span, Opening input kind span := by
  rw [opens_eq_isSome, Option.isSome_iff_exists] at h
  obtain ⟨⟨kind, span⟩, h⟩ := h
  exact ⟨kind, span, .of_special? h⟩

theorem Opening.kind_ne_text {input : Bytes} {kind : Kind} {span : Span}
    (h : Opening input kind span) : kind ≠ .text := by
  cases h with
  | quoted kind quote rest quotes =>
    rintro rfl
    simp [Kind.quote?] at quotes
  | _ => decide

theorem plain_closed (input : Bytes) : (plain input).closed = true := by
  induction input with
  | nil => rfl
  | cons b rest ih => rw [plain]; split <;> simp [ih]

theorem plain_rest (input : Bytes) : (plain input).rest = [] ∨ opens (plain input).rest = true := by
  induction input with
  | nil => exact .inl rfl
  | cons b rest ih =>
    rw [plain]
    split
    · next h => exact .inr h
    · exact ih

theorem plain_taken_ne_nil {input : Bytes} (nonempty : input ≠ [])
    (h : opens input = false) : (plain input).taken ≠ [] := by
  cases input with
  | nil => exact absurd rfl nonempty
  | cons b rest => simp [plain, h]

theorem next?_of_opening {input : Bytes} {kind : Kind} {span : Span}
    (h : Opening input kind span) :
    next? input = some (⟨kind, span.taken, span.closed⟩, span.rest) := by
  rw [next?, h.special?]

theorem next?_of_text {input : Bytes} (nonempty : input ≠ []) (h : opens input = false) :
    next? input = some (⟨.text, (plain input).taken, true⟩, (plain input).rest) := by
  have notSpecial : special? input = none := by
    rwa [opens_eq_isSome, Option.isSome_eq_false_iff, Option.isNone_iff_eq_none] at h
  have taken := plain_taken_ne_nil nonempty h
  have closed := plain_closed input
  rw [next?, notSpecial]
  cases eq : plain input with
  | mk head closed' rest =>
    rw [eq] at taken closed
    cases head with
    | nil => exact absurd rfl taken
    | cons b head => simp_all

@[simp] theorem tokens_nil : tokens [] = [] := by
  rw [tokens]
  rfl

theorem tokens_of_next? {input rest : Bytes} {token : Token}
    (h : next? input = some (token, rest)) : tokens input = token :: tokens rest := by
  rw [tokens]
  split
  · next none => simp [h] at none
  · next other left eq =>
    obtain ⟨rfl, rfl⟩ : token = other ∧ rest = left := by simpa [h] using eq
    rfl

theorem Opening.tokens_eq {input : Bytes} {kind : Kind} {span : Span}
    (h : Opening input kind span) :
    tokens input = ⟨kind, span.taken, span.closed⟩ :: tokens span.rest :=
  tokens_of_next? (next?_of_opening h)

theorem tokens_of_text {input : Bytes} (nonempty : input ≠ []) (h : opens input = false) :
    tokens input = ⟨.text, (plain input).taken, true⟩ :: tokens (plain input).rest :=
  tokens_of_next? (next?_of_text nonempty h)

/-- Induction over the tokens of an input, with the bytes that they leave. -/
@[elab_as_elim] theorem tokens_induction {motive : Bytes → Prop} (nil : motive [])
    (opening : ∀ input kind span, Opening input kind span → motive span.rest → motive input)
    (text : ∀ input, input ≠ [] → opens input = false → motive (plain input).rest → motive input)
    (input : Bytes) : motive input := by
  by_cases empty : input = []
  · exact empty ▸ nil
  · cases h : opens input with
    | true =>
      obtain ⟨kind, span, begins⟩ := exists_opening h
      have shorter := length_lt_of_next? (next?_of_opening begins)
      exact opening input kind span begins (tokens_induction nil opening text span.rest)
    | false =>
      have shorter := length_lt_of_next? (next?_of_text empty h)
      exact text input empty h (tokens_induction nil opening text (plain input).rest)
termination_by input.length

end IndexCoverage.Source
