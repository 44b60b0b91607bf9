import IndexCoverage.Proofs.Source.Grammar

/-! The scan follows the lexical grammar. Each span reaches as far as the grammar says,
wherever in the input it is taken; since the grammar leaves no choice, the tokens of the
scan are the only ones. -/

namespace IndexCoverage.Source

variable {whole : Bytes}

theorem has_here {before rest : Bytes} {b : UInt8} (eq : before ++ b :: rest = whole) :
    Has whole before.length b := by simp [Has, ← eq]

theorem has_next {before rest : Bytes} {b : UInt8} (eq : before ++ b :: rest = whole) (c : UInt8) :
    Has whole (before.length + 1) c ↔ rest.head? = some c := by
  rw [Has, ← eq, List.getElem?_append_right (by omega), Nat.add_sub_cancel_left,
    List.getElem?_cons_succ, List.head?_eq_getElem?]

theorem length_of_eq {before input : Bytes} (eq : before ++ input = whole) :
    whole.length = before.length + input.length := by rw [← eq, List.length_append]

theorem LineEnd.eq_of_newline {place stop : Nat} (line : LineEnd whole place stop)
    (h : Has whole place newline) : stop = place := by
  have inside : place < whole.length := (List.getElem?_eq_some_iff.mp h).1
  exact line.unique (.here h inside)

theorem LineEnd.eq_of_end {stop : Nat} (line : LineEnd whole whole.length stop) :
    stop = whole.length := line.unique (.nowhere _ _ _)

theorem LineEnd.le {place stop : Nat} (line : LineEnd whole place stop)
    (inside : place ≤ whole.length) : place ≤ stop := by
  rcases line with ⟨i, from_, -, -, -, rfl⟩ | ⟨-, rfl⟩ <;> omega

namespace Span

theorem line_reaches (before input : Bytes) (eq : before ++ input = whole) :
    Reaches (Has whole · newline) before.length whole.length 0
      (before.length + (line input).taken.length) := by
  induction input generalizing before with
  | nil =>
    have ends : whole.length = before.length := by simpa using length_of_eq eq
    rw [ends]
    exact .nowhere _ _ _
  | cons b rest ih =>
    have here := has_here eq
    rw [line]
    split
    · next found => exact .here (found ▸ here) (by simp [length_of_eq eq])
    · next found =>
      have next := ih (before ++ [b]) (by simpa using eq)
      rw [reaches_succ fun h => found (here.eq h)]
      simpa [Nat.add_assoc, Nat.add_comm 1] using next

theorem raw_ends (mark : UInt8) (before input : Bytes) (eq : before ++ input = whole) :
    Ends (Has whole · mark) before.length whole.length 1
      (before.length + (raw mark input).taken.length) (raw mark input).closed := by
  induction input generalizing before with
  | nil =>
    have ends : whole.length = before.length := by simpa using length_of_eq eq
    rw [ends]
    exact .nowhere _ _ _
  | cons b rest ih =>
    have here := has_here eq
    rw [raw]
    split
    · next found => exact .here (found ▸ here) (by simp [length_of_eq eq])
    · next found =>
      have next := ih (before ++ [b]) (by simpa using eq)
      rw [ends_succ fun h => found (here.eq h)]
      simpa [Nat.add_assoc, Nat.add_comm 1] using next

theorem block_ends (before input : Bytes) (eq : before ++ input = whole) :
    Ends (fun i => Has whole i star ∧ Has whole (i + 1) slash) before.length whole.length 2
      (before.length + (block input).taken.length) (block input).closed := by
  induction input generalizing before with
  | nil =>
    have ends : whole.length = before.length := by simpa using length_of_eq eq
    rw [ends]
    exact .nowhere _ _ _
  | cons b rest ih =>
    have here := has_here eq
    rw [block]
    split
    · next found =>
      exact .here ⟨found.1 ▸ here, (has_next eq slash).mpr found.2⟩ (by simp [length_of_eq eq])
    · next found =>
      have next := ih (before ++ [b]) (by simpa using eq)
      rw [ends_succ fun h => found ⟨here.eq h.1, (has_next eq slash).mp h.2⟩]
      simpa [Nat.add_assoc, Nat.add_comm 1] using next

theorem quoted_ends {quote : UInt8} (notNewline : quote ≠ newline)
    {start lineEnd : Nat} (before input : Bytes)
    (eq : before ++ input = whole) (inside : start < before.length)
    (clean : ¬Escaped whole start before.length) (line : LineEnd whole before.length lineEnd) :
    Ends (fun i => Has whole i quote ∧ ¬Escaped whole start i) before.length lineEnd 1
      (before.length + (quoted quote input).taken.length) (quoted quote input).closed := by
  have length := length_of_eq eq
  fun_induction quoted quote input generalizing before with
  | case1 =>
    have ends : lineEnd = before.length := by
      have whole : whole.length = before.length := by simpa using length
      rw [← whole] at line ⊢
      exact line.eq_of_end
    rw [ends]
    exact .nowhere _ _ _
  | case2 rest =>
    have here := has_here eq
    refine .here ⟨here, clean⟩ ?_
    rw [lineEnd_succ fun h => notNewline (here.eq h)] at line
    exact line.le (by simp at length; omega)
  | case3 rest _ =>
    rw [line.eq_of_newline (has_here eq)]
    exact .nowhere _ _ _
  | case4 notQuote _ =>
    have here := has_here eq
    have ends : whole.length = before.length + 1 := by simpa using length
    rw [lineEnd_succ fun h => absurd (here.eq h) (by decide), ← ends] at line
    rw [ends_succ fun h => notQuote (here.eq h.1), line.eq_of_end]
    simpa [← ends] using Ends.nowhere _ _ _
  | case5 rest notQuote _ =>
    have here := has_here eq
    have next : Has whole (before.length + 1) newline := (has_next eq newline).mpr rfl
    rw [lineEnd_succ fun h => absurd (here.eq h) (by decide)] at line
    rw [ends_succ fun h => notQuote (here.eq h.1), line.eq_of_newline next]
    exact .nowhere _ _ _
  | case6 c rest notLine notQuote _ ih =>
    have here := has_here eq
    have next : Has whole (before.length + 1) c := (has_next eq c).mpr rfl
    -- The backslash here is not escaped, so it escapes the next byte and none after that.
    have pair : Escaped whole start (before.length + 1) := ⟨inside, here, clean⟩
    have clean' : ¬Escaped whole start (before.length + 2) := fun h => h.2.2 pair
    have line' : LineEnd whole (before.length + 2) lineEnd := by
      rwa [lineEnd_succ fun h => absurd (here.eq h) (by decide),
        lineEnd_succ fun h => notLine (next.eq h)] at line
    have later := ih (before ++ [backslash, c]) (by simpa using eq) (by simp; omega)
      (by simpa using clean') (by simpa using line')
    rw [ends_succ fun h => notQuote (here.eq h.1), ends_succ fun h => h.2 pair]
    simpa [Nat.add_assoc, Nat.add_comm 2] using later (by simp at length ⊢; omega)
  | case7 b rest notQuote notLine notPair ih =>
    have here := has_here eq
    have clean' : ¬Escaped whole start (before.length + 1) := fun h => notPair (here.eq h.2.1)
    have line' : LineEnd whole (before.length + 1) lineEnd := by
      rwa [lineEnd_succ fun h => notLine (here.eq h)] at line
    have later := ih (before ++ [b]) (by simpa using eq) (by simp; omega) (by simpa using clean')
      (by simpa using line')
    rw [ends_succ fun h => notQuote (here.eq h.1)]
    simpa [Nat.add_assoc, Nat.add_comm 1] using later (by simp at length ⊢; omega)

theorem quoted_ends_opened {quote : UInt8} (notNewline : quote ≠ newline) (before rest : Bytes)
    (eq : before ++ quote :: rest = whole) :
    ∃ lineEnd, LineEnd whole (before.length + 1) lineEnd ∧
      Ends (fun i => Has whole i quote ∧ ¬Escaped whole before.length i) (before.length + 1)
        lineEnd 1 (before.length + 1 + (quoted quote rest).taken.length)
        (quoted quote rest).closed := by
  have eq' : (before ++ [quote]) ++ rest = whole := by simpa using eq
  have line : LineEnd whole (before ++ [quote]).length _ :=
    line_reaches (before ++ [quote]) rest eq'
  have clean : ¬Escaped whole before.length (before ++ [quote]).length := by simp [Escaped]
  have ends := quoted_ends notNewline (before ++ [quote]) rest eq' (by simp) clean line
  rw [List.length_append, List.length_singleton] at line ends
  exact ⟨_, line, ends⟩

end Span

theorem begins_iff_opens (before input : Bytes) (eq : before ++ input = whole) :
    Begins whole before.length ↔ opens input = true := by
  cases input with
  | nil =>
    have outside (b : UInt8) : ¬Has whole before.length b := by
      have ends : whole.length = before.length := by simpa using length_of_eq eq
      simp [Has, ends]
    simp [Begins, opens, outside]
  | cons b rest =>
    have here (c : UInt8) : Has whole before.length c ↔ b = c :=
      ⟨(has_here eq).eq, fun same => same ▸ has_here eq⟩
    simp only [Begins, opens, here, has_next eq, Bool.or_eq_true, Bool.and_eq_true,
      decide_eq_true_eq]
    tauto

theorem plain_fits (before input : Bytes) (eq : before ++ input = whole) (place : Nat)
    (from_ : before.length ≤ place) (until_ : place < before.length + (plain input).taken.length) :
    ¬Begins whole place := by
  induction input generalizing before with
  | nil =>
    simp [plain] at until_
    omega
  | cons b rest ih =>
    rw [plain] at until_
    split at until_
    · simp at until_
      omega
    · next notOpen =>
      by_cases first : place = before.length
      · rw [first, begins_iff_opens before (b :: rest) eq]
        exact notOpen
      · refine ih (before ++ [b]) (by simpa using eq) (by simp; omega) ?_
        simpa [Nat.add_assoc, Nat.add_comm 1] using until_

theorem fits_of_quoted {e : Extent} {quote : UInt8} (quotes : e.kind.quote? = some quote)
    (h : e.IsQuoted quote whole) : e.Fits whole := by
  obtain ⟨kind, start, stop⟩ := e
  cases kind with
  | string =>
    obtain rfl : doubleQuote = quote := Option.some.inj quotes
    exact h
  | char =>
    obtain rfl : singleQuote = quote := Option.some.inj quotes
    exact h
  | _ => simp [Kind.quote?] at quotes

theorem Opening.fits {kind : Kind} {span : Span} (before : Bytes) {input : Bytes}
    (h : Opening input kind span) (eq : before ++ input = whole) :
    Extent.Fits whole ⟨kind, before.length, before.length + span.taken.length⟩ := by
  cases h with
  | line rest =>
    have here := has_here eq
    have next : Has whole (before.length + 1) slash := (has_next eq slash).mpr rfl
    have reach := Span.line_reaches (before ++ [slash, slash]) rest (by simpa using eq)
    refine .inl ⟨here, next, ?_⟩
    rw [lineEnd_succ fun h => absurd (here.eq h) (by decide),
      lineEnd_succ fun h => absurd (next.eq h) (by decide)]
    simpa [LineEnd, Nat.add_assoc, Nat.add_comm 2] using reach
  | block rest =>
    have next : Has whole (before.length + 1) star := (has_next eq star).mpr rfl
    have reach := (Span.block_ends (before ++ [slash, star]) rest (by simpa using eq)).reaches
    refine .inr ⟨has_here eq, next, ?_⟩
    simpa [Nat.add_assoc, Nat.add_comm 2] using reach
  | quoted kind quote rest quotes =>
    have here := has_here eq
    have notNewline := (Kind.quote?_ne quotes).1
    obtain ⟨lineEnd, line, ends⟩ := Span.quoted_ends_opened notNewline before rest eq
    refine fits_of_quoted quotes ⟨here, lineEnd, ?_, ?_⟩
    · rwa [lineEnd_succ fun h => notNewline (here.eq h)]
    · simpa [Nat.add_assoc, Nat.add_comm 1] using ends.reaches
  | raw rest =>
    have reach := (Span.raw_ends backtick (before ++ [backtick]) rest (by simpa using eq)).reaches
    refine ⟨has_here eq, ?_⟩
    simpa [Nat.add_assoc, Nat.add_comm 1] using reach

theorem extentsFrom_cons (offset : Nat) (token : Token) (rest : List Token) :
    extentsFrom offset (token :: rest) =
      ⟨token.kind, offset, offset + token.bytes.length⟩ ::
        extentsFrom (offset + token.bytes.length) rest := rfl

theorem LexesFrom.nil (input : Bytes) : LexesFrom input input.length [] where
  tiles := rfl
  apart := .nil
  fits := by simp

theorem LexesFrom.token {before rest : Bytes} {token : Token} {tokens : List Token}
    (eq : before ++ (token.bytes ++ rest) = whole) (nonempty : token.bytes ≠ [])
    (fits : Extent.Fits whole ⟨token.kind, before.length, before.length + token.bytes.length⟩)
    (apart : token.kind = .text → ∀ next ∈ tokens.head?, next.kind ≠ .text)
    (h : LexesFrom whole (before ++ token.bytes).length
      (extentsFrom (before ++ token.bytes).length tokens)) :
    LexesFrom whole before.length (extentsFrom before.length (token :: tokens)) := by
  have length := length_of_eq eq
  have taken := List.length_pos_iff.mpr nonempty
  rw [List.length_append] at length h
  rw [extentsFrom_cons]
  constructor
  · exact ⟨rfl, Nat.lt_add_of_pos_right taken, by simp only; omega, h.tiles⟩
  · refine List.isChain_cons.mpr ⟨fun next head both => ?_, h.apart⟩
    cases tokens with
    | nil => simp [extentsFrom, placed] at head
    | cons other others =>
      obtain rfl := by simpa [extentsFrom_cons] using head
      exact apart both.1 other rfl both.2
  · intro e inside
    rcases List.mem_cons.mp inside with rfl | inside
    · exact fits
    · exact h.fits e inside

/-- The tokens of what follows a place divide it by the grammar. -/
theorem lexesFrom_extents (before input : Bytes) (eq : before ++ input = whole) :
    LexesFrom whole before.length (extentsFrom before.length (tokens input)) := by
  induction input using tokens_induction generalizing before with
  | nil =>
    have ends : whole.length = before.length := by simpa using length_of_eq eq
    rw [tokens_nil, ← ends]
    exact .nil whole
  | opening input kind span begins ih =>
    obtain ⟨all, nonempty⟩ := special?_append begins.special?
    rw [begins.tokens_eq]
    exact .token (by rw [all, eq]) nonempty (begins.fits before eq) (absurd · begins.kind_ne_text)
      (ih (before ++ span.taken) (by rw [List.append_assoc, all, eq]))
  | text input nonempty notOpen ih =>
    have all := plain_append input
    rw [tokens_of_text nonempty notOpen]
    refine .token (by rw [all, eq]) (plain_taken_ne_nil nonempty notOpen)
      (plain_fits before input eq) (fun _ next head => ?_)
      (ih (before ++ (plain input).taken) (by rw [List.append_assoc, all, eq]))
    rcases plain_rest input with ends | opens
    · simp [ends] at head
    · obtain ⟨kind, span, begins⟩ := exists_opening opens
      obtain rfl := by simpa [begins.tokens_eq] using head
      exact begins.kind_ne_text

/-- Exactly one list of extents divides an input into tokens: that of the scan. -/
theorem lexes_iff (input : Bytes) (parts : List Extent) :
    Lexes input parts ↔ parts = extents input := by
  have scanned : Lexes input (extents input) := lexesFrom_extents [] input rfl
  constructor
  · exact fun h => LexesFrom.unique h scanned
  · rintro rfl
    exact scanned

end IndexCoverage.Source
