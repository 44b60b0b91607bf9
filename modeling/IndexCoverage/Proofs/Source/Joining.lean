import IndexCoverage.Proofs.Source.CodeLines
import IndexCoverage.Proofs.Source.Rescan

/-! Two inputs, one behind the other. If nothing is open at the end of the first, the scan reads
it as it does alone and then goes on with the second as if that stood alone; only a text at the
end and a text at the beginning become one. So what is stripped, the faults and, at the end of a
line, the lines of code are those of the first and then those of the second. -/

namespace IndexCoverage.Source

/-- A token at the end of an input that nothing behind it can change: it has its end, it is no
line comment, which would go on, and no text with a slash at its end, which could begin a
comment. -/
structure Token.Seals (token : Token) : Prop where
  closed : token.closed = true
  notLine : token.isLineComment = false
  notSlash : token.kind = .text → token.bytes.getLast? ≠ some slash

def Sealed (input : Bytes) : Prop := ∀ last ∈ (tokens input).getLast?, last.Seals

/-- A token in front of others; text is put together with text that follows. -/
def Token.meets (token : Token) (rest : List Token) : List Token :=
  if token.kind = .comment then token :: rest else token.before rest

theorem Sealed.rest {input rest : Bytes} {token : Token} (h : Sealed input)
    (first : tokens input = token :: tokens rest) : Sealed rest := by
  intro last found
  refine h last ?_
  rw [first, List.getLast?_cons, Option.mem_def.mp found]
  rfl

theorem Sealed.last {input : Bytes} {token : Token} (h : Sealed input)
    (only : tokens input = token :: tokens []) : token.Seals :=
  h token (by rw [only, tokens_nil]; rfl)

theorem AtLineEnd.append {rest : Bytes} (h : AtLineEnd rest) (nonempty : rest ≠ []) (more : Bytes) :
    AtLineEnd (rest ++ more) := by
  cases rest with
  | nil => exact absurd rfl nonempty
  | cons b rest => exact h

theorem Opening.append {input : Bytes} {kind : Kind} {span : Span} (h : Opening input kind span)
    (closed : Sealed input) (more : Bytes) :
    Opening (input ++ more) kind ⟨span.taken, span.closed, span.rest ++ more⟩ := by
  have all : span.taken ++ (span.rest ++ more) = input ++ more := by
    rw [← List.append_assoc, (special?_append h.special?).1]
  rw [← all]
  refine h.followed ?_
  by_cases empty : span.rest = []
  · have seals := closed.last (h.tokens_eq.trans (by rw [empty]))
    exact .inl ⟨seals.closed, seals.notLine⟩
  · exact h.ends.imp_right fun atEnd =>
      ⟨atEnd.append empty more, fun none => absurd none empty⟩

theorem Sealed.opens_last {input : Bytes} (closed : Sealed input) (nonempty : input ≠ [])
    (notOpen : opens input = false) (more : Bytes)
    (last : (plain input).taken.getLast? = some slash) :
    opens (slash :: ((plain input).rest ++ more)) = false := by
  cases left : (plain input).rest with
  | nil =>
    have seals := closed.last ((tokens_of_text nonempty notOpen).trans (by rw [left]))
    exact absurd last (seals.notSlash rfl)
  | cons b rest =>
    have closedOff := Source.opens_last last
    rwa [left] at closedOff

/-- The tokens of the first input, and behind them those of the second. -/
theorem tokens_append {input : Bytes} (closed : Sealed input) (more : Bytes) :
    tokens (input ++ more) = (tokens input).foldr Token.meets (tokens more) := by
  induction input using tokens_induction with
  | nil => rw [tokens_nil]; rfl
  | opening input kind span begins ih =>
    have notText := begins.kind_ne_text
    have first := begins.tokens_eq
    have on := ih (closed.rest first)
    rw [(begins.append closed more).tokens_eq, on, first, List.foldr_cons, Token.meets]
    split
    · rfl
    · next notComment =>
      exact (Token.before_of_apart _ notComment _ (absurd · notText)).symm
  | text input nonempty notOpen ih =>
    have first := tokens_of_text nonempty notOpen
    have on := ih (closed.rest first)
    have whole : input ++ more = (plain input).taken ++ ((plain input).rest ++ more) := by
      rw [← List.append_assoc, plain_append]
    rw [whole, tokens_text_append (plain_taken_ne_nil nonempty notOpen)
      (plain_again (closed.opens_last nonempty notOpen more)), on, first, List.foldr_cons]
    rfl

def kept (tokens : List Token) : Bytes := (tokens.filter (·.kind ≠ .comment)).flatMap Token.bytes

theorem kept_cons (token : Token) (rest : List Token) :
    kept (token :: rest) = (if token.kind = .comment then [] else token.bytes) ++ kept rest := by
  by_cases isComment : token.kind = .comment <;> simp [kept, isComment]

theorem Token.meets_cases (token : Token) (rest : List Token) :
    token.meets rest = token :: rest ∨
      ∃ next more, token.kind = .text ∧ next.kind = .text ∧ rest = next :: more ∧
        token.meets rest = ⟨.text, token.bytes ++ next.bytes, true⟩ :: more := by
  by_cases isComment : token.kind = .comment
  · exact .inl (if_pos isComment)
  · rw [meets, if_neg isComment]
    rcases token.before_cases rest with ⟨comment, -⟩ | together | ⟨-, eq⟩
    · exact absurd comment isComment
    · exact .inr together
    · exact .inl eq

theorem kept_meets (token : Token) (rest : List Token) :
    kept (token.meets rest) = kept (token :: rest) := by
  rcases token.meets_cases rest with eq | ⟨next, more, isText, moreText, rfl, eq⟩
  · rw [eq]
  · rw [eq, kept_cons, kept_cons, kept_cons]
    simp [isText, moreText]

theorem kept_foldr_meets (tokens others : List Token) :
    kept (tokens.foldr Token.meets others) = kept tokens ++ kept others := by
  induction tokens with
  | nil => rfl
  | cons token rest ih =>
    rw [List.foldr_cons, kept_meets, kept_cons, kept_cons, ih, List.append_assoc]

theorem textClosed_cons {token : Token} {rest : List Token} :
    TextClosed (token :: rest) ↔ (token.kind = .text → token.closed = true) ∧ TextClosed rest :=
  List.forall_mem_cons

theorem textClosed_meets {token : Token} {rest : List Token} (h : TextClosed (token :: rest)) :
    TextClosed (token.meets rest) := by
  unfold Token.meets
  split
  · exact h
  · exact textClosed_before h

theorem faultsFrom_meets {token : Token} {rest : List Token} (h : TextClosed (token :: rest))
    (offset : Nat) : faultsFrom offset (token.meets rest) = faultsFrom offset (token :: rest) := by
  unfold Token.meets
  split
  · rfl
  · next notComment => rw [faultsFrom_before h, if_neg notComment]

theorem textClosed_foldr_meets {tokens others : List Token} (first : TextClosed tokens)
    (second : TextClosed others) : TextClosed (tokens.foldr Token.meets others) := by
  induction tokens with
  | nil => exact second
  | cons token rest ih =>
    have here := textClosed_cons.mp first
    exact textClosed_meets (textClosed_cons.mpr ⟨here.1, ih here.2⟩)

theorem faultsFrom_foldr_meets {tokens others : List Token} (first : TextClosed tokens)
    (second : TextClosed others) (offset : Nat) :
    faultsFrom offset (tokens.foldr Token.meets others) = faultsFrom offset tokens ++
      faultsFrom (offset + (tokens.flatMap Token.bytes).length) others := by
  induction tokens generalizing offset with
  | nil => rfl
  | cons token rest ih =>
    have here := textClosed_cons.mp first
    have closed := textClosed_cons.mpr ⟨here.1, textClosed_foldr_meets here.2 second⟩
    rw [List.foldr_cons, faultsFrom_meets closed, faultsFrom_cons, faultsFrom_cons, ih here.2,
      List.append_assoc, List.flatMap_cons, List.length_append, Nat.add_assoc]

theorem strip_append {input : Bytes} (closed : Sealed input) (more : Bytes) :
    strip (input ++ more) = strip input ++ strip more := by
  change kept (tokens (input ++ more)) = kept (tokens input) ++ kept (tokens more)
  rw [tokens_append closed, kept_foldr_meets]

theorem faults_append {input : Bytes} (closed : Sealed input) (more : Bytes) :
    faults (input ++ more) = faults input ++
      (faults more).map fun (offset, fault) => (offset + input.length, fault) := by
  change faultsFrom 0 (tokens (input ++ more)) = faultsFrom 0 (tokens input) ++ _
  rw [tokens_append closed,
    faultsFrom_foldr_meets (textClosed_tokens input) (textClosed_tokens more), flatMap_tokens,
    faultsFrom_add]
  rfl

theorem Span.block_last {input : Bytes} (closed : (block input).closed = true) :
    (block input).taken.getLast? = some slash := by
  induction input with
  | nil => simp [block] at closed
  | cons b rest ih =>
    rw [block] at closed ⊢
    split at closed
    · next ends => simp [ends]
    · next goesOn =>
      rw [if_neg goesOn, push_taken, List.getLast?_cons, ih closed]
      rfl

theorem Opening.last_of_comment {input : Bytes} {span : Span} (h : Opening input .comment span)
    (seals : Token.Seals ⟨.comment, span.taken, span.closed⟩) :
    span.taken.getLast? = some slash := by
  cases h with
  | line rest => simpa [Token.isLineComment] using seals.notLine
  | block rest =>
    have last := Span.block_last seals.closed
    simp only [Span.push_taken, List.getLast?_cons, last, Option.getD_some]
  | quoted kind quote rest quotes => simp [Kind.quote?] at quotes

theorem getLast?_strip {input : Bytes} (closed : Sealed input)
    (last : input.getLast? = some newline) : (strip input).getLast? = some newline := by
  induction input using tokens_induction with
  | nil => simp at last
  | opening input kind span begins ih =>
    rw [← (special?_append begins.special?).1, List.getLast?_append] at last
    rw [strip_of_opening begins]
    cases left : span.rest with
    | nil =>
      have seals := closed.last (begins.tokens_eq.trans (by rw [left]))
      have taken : span.taken.getLast? = some newline := by simpa [left] using last
      by_cases isComment : kind = .comment
      · subst isComment
        rw [begins.last_of_comment seals] at taken
        exact absurd taken (by decide)
      · simpa [isComment, strip] using taken
    | cons b more =>
      have inRest : span.rest.getLast? = some newline := by simpa [left] using last
      have on := ih (closed.rest begins.tokens_eq) inRest
      rw [left] at on
      split <;> simp [on]
  | text input nonempty notOpen ih =>
    rw [← plain_append input, List.getLast?_append] at last
    rw [strip_of_text nonempty notOpen]
    cases left : (plain input).rest with
    | nil => simpa [left, strip] using last
    | cons b more =>
      have inRest : (plain input).rest.getLast? = some newline := by simpa [left] using last
      have on := ih (closed.rest (tokens_of_text nonempty notOpen)) inRest
      rw [left] at on
      simp [on]

theorem countP_lines_append {first : Bytes} (h : first = [] ∨ first.getLast? = some newline)
    (second : Bytes) : (lines (first ++ second)).countP isCode =
      (lines first).countP isCode + (lines second).countP isCode := by
  have none : (lines []).countP isCode = 0 := rfl
  rcases h with rfl | last
  · rw [List.nil_append, none, Nat.zero_add]
  · obtain ⟨line, rfl⟩ := List.getLast?_eq_some_iff.mp last
    have parted (more : Bytes) : lines (line ++ newline :: more) = lines line ++ lines more := by
      simp only [lines_eq_splitOnP]
      exact List.splitOnP_append_cons line more (decide_eq_true rfl)
    rw [List.append_assoc, List.singleton_append, parted, parted, List.countP_append,
      List.countP_append, none, Nat.add_zero]

/-- Where nothing is open, scanning goes part by part: what is left, the faults and, behind the end
of a line, the lines of code. -/
theorem scan_append {input : Bytes} (closed : Sealed input) (more : Bytes) :
    strip (input ++ more) = strip input ++ strip more ∧
    faults (input ++ more) = faults input ++
      (faults more).map (fun (offset, fault) => (offset + input.length, fault)) ∧
    (input = [] ∨ input.getLast? = some newline →
      countLines (input ++ more) = countLines input + countLines more) := by
  refine ⟨strip_append closed more, faults_append closed more, fun atLineEnd => ?_⟩
  have stripped : strip input = [] ∨ (strip input).getLast? = some newline :=
    atLineEnd.imp (fun none => by simp [none, strip]) (getLast?_strip closed)
  rw [countLines, strip_append closed, countP_lines_append stripped]
  rfl

def cutOff : Bytes := [47, 42, 97, 42, 47, 34, 98, 92, 10]

theorem tokens_cutOff : tokens cutOff = [⟨.comment, [47, 42, 97, 42, 47], true⟩,
    ⟨.string, [34, 98, 92], false⟩, ⟨.text, [10], true⟩] := by
  have comment : next? cutOff =
      some (⟨.comment, [47, 42, 97, 42, 47], true⟩, [34, 98, 92, 10]) := rfl
  have string : next? [34, 98, 92, 10] = some (⟨.string, [34, 98, 92], false⟩, [10]) := rfl
  have text : next? [10] = some (⟨.text, [10], true⟩, []) := rfl
  rw [tokens_of_next? comment, tokens_of_next? string, tokens_of_next? text, tokens_nil]

theorem sealed_cutOff : Sealed cutOff := by
  intro last found
  obtain rfl : ⟨.text, [10], true⟩ = last := by simpa [tokens_cutOff] using found
  exact ⟨rfl, rfl, by decide⟩

theorem scan_append_cutOff :
    Sealed cutOff ∧ cutOff.getLast? = some newline ∧
      strip (cutOff ++ cutOff) = strip cutOff ++ strip cutOff ∧
      faults (cutOff ++ cutOff) = faults cutOff ++
        (faults cutOff).map (fun (offset, fault) => (offset + cutOff.length, fault)) ∧
      countLines (cutOff ++ cutOff) = countLines cutOff + countLines cutOff :=
  have ⟨stripped, found, counted⟩ := scan_append sealed_cutOff cutOff
  ⟨sealed_cutOff, rfl, stripped, found, counted (.inr rfl)⟩

end IndexCoverage.Source
