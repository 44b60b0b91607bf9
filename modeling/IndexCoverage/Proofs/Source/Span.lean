import IndexCoverage.Source.Token

/-! Where spans end, and that a span is read again as it was when something else
follows it: always if it is closed, and if it is not, where the same end comes. -/

namespace IndexCoverage.Source

def AtLineEnd (rest : Bytes) : Prop := rest.head?.all (· = newline)

@[simp] theorem atLineEnd_nil : AtLineEnd [] := rfl

@[simp] theorem atLineEnd_cons (b : UInt8) (rest : Bytes) :
    AtLineEnd (b :: rest) ↔ b = newline := by simp [AtLineEnd]

namespace Span

variable {quote : UInt8}

theorem quoted_of_quote (rest : Bytes) : quoted quote (quote :: rest) = ⟨[quote], true, rest⟩ := by
  rw [quoted.eq_def]
  simp

theorem quoted_of_lineEnd (differs : newline ≠ quote) {rest : Bytes} (h : AtLineEnd rest) :
    quoted quote rest = ⟨[], false, rest⟩ := by
  cases rest with
  | nil => rfl
  | cons b rest =>
    obtain rfl : b = newline := by simpa using h
    rw [quoted.eq_def]
    simp [differs]

theorem quoted_of_lone_backslash (differs : backslash ≠ quote) {rest : Bytes}
    (h : AtLineEnd rest) : quoted quote (backslash :: rest) = ⟨[backslash], false, rest⟩ := by
  have notLine : backslash ≠ newline := by decide
  cases rest with
  | nil => simp [quoted, differs, notLine]
  | cons b rest =>
    obtain rfl : b = newline := by simpa using h
    simp [quoted, differs, notLine]

theorem quoted_of_pair (differs : backslash ≠ quote) {b : UInt8} (notLine : b ≠ newline)
    (rest : Bytes) :
    quoted quote (backslash :: b :: rest) = ((quoted quote rest).push b).push backslash := by
  have : backslash ≠ newline := by decide
  simp [quoted, differs, notLine, this]

theorem quoted_of_other {b : UInt8} (differs : b ≠ quote) (notLine : b ≠ newline)
    (notBackslash : b ≠ backslash) (rest : Bytes) :
    quoted quote (b :: rest) = (quoted quote rest).push b := by
  rw [quoted.eq_def]
  simp [differs, notLine, notBackslash]

theorem quoted_rest (quote : UInt8) (input : Bytes) :
    (quoted quote input).closed = true ∨ AtLineEnd (quoted quote input).rest := by
  fun_induction quoted quote input <;> simp_all

theorem line_rest (input : Bytes) : AtLineEnd (line input).rest := by
  induction input with
  | nil => rfl
  | cons b rest ih =>
    rw [line]
    split
    · next found => simpa using found
    · exact ih

@[simp] theorem line_closed (input : Bytes) : (line input).closed = true := by
  induction input with
  | nil => rfl
  | cons b rest ih => rw [line]; split <;> simp [ih]

theorem block_rest (input : Bytes) : (block input).closed = true ∨ (block input).rest = [] := by
  induction input with
  | nil => exact .inr rfl
  | cons b rest ih => rw [block]; split <;> simp [ih]

theorem raw_rest (mark : UInt8) (input : Bytes) :
    (raw mark input).closed = true ∨ (raw mark input).rest = [] := by
  induction input with
  | nil => exact .inr rfl
  | cons b rest ih => rw [raw]; split <;> simp [ih]

theorem quoted_again (differs : newline ≠ quote) {input after : Bytes}
    (h : (quoted quote input).closed = true ∨ AtLineEnd after) :
    quoted quote ((quoted quote input).taken ++ after) =
      ⟨(quoted quote input).taken, (quoted quote input).closed, after⟩ := by
  fun_induction quoted quote input with
  | case1 => exact quoted_of_lineEnd differs (by simpa using h)
  | case2 rest => exact quoted_of_quote after
  | case3 rest _ => exact quoted_of_lineEnd differs (by simpa using h)
  | case4 notQuote _ => exact quoted_of_lone_backslash notQuote (by simpa using h)
  | case5 rest notQuote _ => exact quoted_of_lone_backslash notQuote (by simpa using h)
  | case6 c rest notLine notQuote _ ih =>
    simp only [push_taken, push_closed, List.cons_append]
    rw [quoted_of_pair notQuote notLine, ih h]
    rfl
  | case7 b rest notQuote notLine notBackslash ih =>
    simp only [push_taken, push_closed, List.cons_append]
    rw [quoted_of_other notQuote notLine notBackslash, ih h]
    rfl

theorem line_again {input after : Bytes} (h : AtLineEnd after) :
    line ((line input).taken ++ after) = ⟨(line input).taken, true, after⟩ := by
  induction input with
  | nil =>
    cases after with
    | nil => rfl
    | cons b rest =>
      obtain rfl : b = newline := by simpa using h
      simp [line]
  | cons b rest ih =>
    by_cases found : b = newline
    · cases after with
      | nil => simp [line, found]
      | cons b rest =>
        obtain rfl : b = newline := by simpa using h
        simp [line, found]
    · simp only [line, found, if_false, push_taken, List.cons_append]
      rw [ih]
      rfl

theorem block_again {input after : Bytes} (h : (block input).closed = true ∨ after = []) :
    block ((block input).taken ++ after) =
      ⟨(block input).taken, (block input).closed, after⟩ := by
  induction input with
  | nil =>
    obtain rfl : after = [] := by simpa [block] using h
    rfl
  | cons b rest ih =>
    by_cases found : b = star ∧ rest.head? = some slash
    · simp [block, found]
    · simp only [block, found, if_false, push_taken, push_closed] at h ⊢
      have still : ¬(b = star ∧ ((block rest).taken ++ after).head? = some slash) := by
        cases rest with
        | nil =>
          obtain rfl : after = [] := by simpa [block] using h
          simp [block]
        | cons c more =>
          have all := block_append (c :: more)
          cases taken : (block (c :: more)).taken with
          | nil =>
            rw [block] at taken
            split at taken <;> simp at taken
          | cons d others =>
            rw [taken, List.cons_append, List.cons.injEq] at all
            simpa [all.1] using found
      rw [List.cons_append, block, if_neg still, ih h]
      rfl

theorem raw_again {mark : UInt8} {input after : Bytes}
    (h : (raw mark input).closed = true ∨ after = []) :
    raw mark ((raw mark input).taken ++ after) =
      ⟨(raw mark input).taken, (raw mark input).closed, after⟩ := by
  induction input with
  | nil =>
    obtain rfl : after = [] := by simpa [raw] using h
    rfl
  | cons b rest ih =>
    by_cases found : b = mark
    · simp [raw, found]
    · simp only [raw, found, if_false, push_taken, push_closed, List.cons_append] at h ⊢
      rw [ih h]
      rfl

end Span
end IndexCoverage.Source
