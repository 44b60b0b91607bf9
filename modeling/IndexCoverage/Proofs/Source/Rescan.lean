import IndexCoverage.Proofs.Source.Faults
import IndexCoverage.Proofs.Source.Span
import IndexCoverage.Source.Lines

/-! Scanning what is left without the comments. Where a comment is taken out, two
parts meet that stood apart. The text in front of a comment never ends in a slash,
and a literal that lacks its end is followed by a newline or by nothing, so that no
comment and no literal begins, ends or changes there. -/

namespace IndexCoverage.Source

/-- A token in front of others: a comment falls away, and text is put together with
text that follows. -/
def Token.before (token : Token) (rest : List Token) : List Token :=
  match token.kind, rest with
  | .comment, rest => rest
  | .text, ⟨.text, more, _⟩ :: rest => ⟨.text, token.bytes ++ more, true⟩ :: rest
  | _, rest => token :: rest

/-- Tokens without the comments, and with texts that meet put together. -/
def uncommented (tokens : List Token) : List Token := tokens.foldr Token.before []

def Token.isLiteral (token : Token) : Bool := token.kind ≠ .text ∧ token.kind ≠ .comment

theorem opens_cons_congr {b : UInt8} {rest after : Bytes}
    (h : b = slash → rest.head? = after.head?) : opens (b :: rest) = opens (b :: after) := by
  by_cases isSlash : b = slash
  · simp [opens, h isSlash]
  · simp [opens, isSlash]

theorem plain_again {input after : Bytes}
    (h : (plain input).taken.getLast? = some slash → opens (slash :: after) = false) :
    plain ((plain input).taken ++ after) =
      ⟨(plain input).taken ++ (plain after).taken, true, (plain after).rest⟩ := by
  induction input with
  | nil => exact congrArg (Span.mk (plain after).taken · (plain after).rest) (plain_closed after)
  | cons b rest ih =>
    rw [plain] at h ⊢
    split
    · exact congrArg (Span.mk (plain after).taken · (plain after).rest) (plain_closed after)
    · next notOpen =>
      simp only [notOpen, if_false, Bool.false_eq_true, Span.push_taken] at h ⊢
      have still : opens (b :: ((plain rest).taken ++ after)) = false := by
        cases taken : (plain rest).taken with
        | nil =>
          rw [taken] at h
          by_cases isSlash : b = slash
          · subst isSlash
            exact h rfl
          · have same : opens (b :: after) = opens (b :: rest) :=
              opens_cons_congr (absurd · isSlash)
            rw [← Bool.not_eq_true, List.nil_append, same]
            exact notOpen
        | cons c more =>
          have head : rest.head? = some c := by
            rw [← plain_append rest, taken]
            rfl
          have same : opens (b :: c :: (more ++ after)) = opens (b :: rest) :=
            opens_cons_congr fun _ => by simp [head]
          rw [← Bool.not_eq_true, List.cons_append, same]
          exact notOpen
      have inside : (plain rest).taken.getLast? = some slash → opens (slash :: after) = false := by
        intro last
        refine h ?_
        rw [List.getLast?_cons, last]
        rfl
      rw [List.cons_append, plain, still, ih inside]
      simp [Span.push]

theorem strip_of_opening {input : Bytes} {kind : Kind} {span : Span} (h : Opening input kind span) :
    strip input = if kind = .comment then strip span.rest else span.taken ++ strip span.rest := by
  rw [strip, h.tokens_eq]
  by_cases isComment : kind = .comment <;> simp [isComment, strip]

theorem strip_of_text {input : Bytes} (nonempty : input ≠ []) (h : opens input = false) :
    strip input = (plain input).taken ++ strip (plain input).rest := by
  rw [strip, tokens_of_text nonempty h]
  simp [strip]

theorem head?_strip {input : Bytes} (h : input.head? ≠ some slash) :
    (strip input).head? = input.head? := by
  induction input using tokens_induction with
  | nil => simp [strip]
  | opening input kind span begins =>
    cases begins with
    | line rest => simp at h
    | block rest => simp at h
    | quoted kind quote rest quotes =>
      have notComment : kind ≠ .comment := by
        rintro rfl
        simp [Kind.quote?] at quotes
      rw [strip_of_opening (.quoted kind quote rest quotes), if_neg notComment]
      rfl
    | raw rest =>
      rw [strip_of_opening (.raw rest)]
      rfl
  | text input nonempty notOpen =>
    rw [strip_of_text nonempty notOpen]
    have taken := plain_taken_ne_nil nonempty notOpen
    have all := plain_append input
    cases text : (plain input).taken with
    | nil => exact absurd text taken
    | cons b more =>
      rw [text] at all
      rw [← all]
      rfl

theorem atLineEnd_strip {rest : Bytes} (h : AtLineEnd rest) : AtLineEnd (strip rest) := by
  have notSlash : rest.head? ≠ some slash := by
    cases rest with
    | nil => simp
    | cons b rest =>
      obtain rfl : b = newline := by simpa using h
      simp [newline, slash]
  rwa [AtLineEnd, head?_strip notSlash]

theorem opens_last {input : Bytes} {b : UInt8} (h : (plain input).taken.getLast? = some b) :
    opens (b :: (plain input).rest) = false := by
  induction input with
  | nil => simp [plain] at h
  | cons c rest ih =>
    rw [plain] at h ⊢
    split at h
    · simp at h
    · next notOpen =>
      rw [if_neg notOpen, Span.push_rest]
      rw [Span.push_taken, List.getLast?_cons] at h
      have all := plain_append rest
      cases last : (plain rest).taken.getLast? with
      | some d =>
        obtain rfl : d = b := by simpa [last] using h
        exact ih last
      | none =>
        obtain rfl : c = b := by simpa [last] using h
        rw [List.getLast?_eq_none_iff.mp last, List.nil_append] at all
        rw [all]
        simpa using notOpen

theorem opens_last_strip {input : Bytes} (h : (plain input).taken.getLast? = some slash) :
    opens (slash :: strip (plain input).rest) = false := by
  have closedOff := opens_last h
  have notSlash : (plain input).rest.head? ≠ some slash := by
    intro head
    simp [opens, head] at closedOff
  rw [opens_cons_congr fun _ => head?_strip notSlash]
  exact closedOff

def Token.isLineComment (token : Token) : Bool :=
  token.kind = .comment ∧ token.bytes.take 2 = [slash, slash]

theorem Opening.ends {input : Bytes} {kind : Kind} {span : Span} (h : Opening input kind span) :
    span.closed = true ∧ Token.isLineComment ⟨kind, span.taken, span.closed⟩ = false ∨
      AtLineEnd span.rest := by
  cases h with
  | line rest => exact .inr (Span.line_rest rest)
  | block rest =>
    exact (Span.block_rest rest).imp (⟨·, by simp [Token.isLineComment, star, slash]⟩)
      fun none => by simp [none]
  | quoted kind quote rest quotes =>
    have notSlash := (Kind.quote?_ne quotes).2.2.1
    exact (Span.quoted_rest quote rest).imp_left
      (⟨·, by simp [Token.isLineComment, notSlash]⟩)
  | raw rest =>
    exact (Span.raw_rest backtick rest).imp (⟨·, by simp [Token.isLineComment]⟩)
      fun none => by simp [none]

theorem Opening.followed {input after : Bytes} {kind : Kind} {span : Span}
    (h : Opening input kind span)
    (ends : span.closed = true ∧ Token.isLineComment ⟨kind, span.taken, span.closed⟩ = false ∨
      AtLineEnd after ∧ (span.rest = [] → after = [])) :
    Opening (span.taken ++ after) kind ⟨span.taken, span.closed, after⟩ := by
  cases h with
  | line rest =>
    have atEnd := (ends.resolve_left fun other => by simp [Token.isLineComment] at other).1
    have opening := Opening.line ((Span.line rest).taken ++ after)
    rw [Span.line_again atEnd] at opening
    simpa [Span.push] using opening
  | block rest =>
    have closed : (Span.block rest).closed = true ∨ after = [] :=
      (Span.block_rest rest).elim .inl fun none => ends.imp And.left fun there => there.2 none
    have opening := Opening.block ((Span.block rest).taken ++ after)
    rwa [Span.block_again closed] at opening
  | quoted kind quote rest quotes =>
    have opening := Opening.quoted kind quote ((Span.quoted quote rest).taken ++ after) quotes
    rwa [Span.quoted_again (Kind.quote?_ne quotes).1.symm (ends.imp And.left And.left)] at opening
  | raw rest =>
    have closed : (Span.raw backtick rest).closed = true ∨ after = [] :=
      (Span.raw_rest backtick rest).elim .inl fun none =>
        ends.imp And.left fun there => there.2 none
    have opening := Opening.raw ((Span.raw backtick rest).taken ++ after)
    rwa [Span.raw_again closed] at opening

theorem Opening.again {input : Bytes} {kind : Kind} {span : Span} (h : Opening input kind span) :
    Opening (span.taken ++ strip span.rest) kind ⟨span.taken, span.closed, strip span.rest⟩ :=
  h.followed <| h.ends.imp_right fun atEnd =>
    ⟨atLineEnd_strip atEnd, fun none => by simp [none, strip]⟩

theorem not_opens_of_taken {input : Bytes} (h : (plain input).taken ≠ []) :
    opens input = false := by
  cases input with
  | nil => rfl
  | cons b rest =>
    rw [plain] at h
    split at h
    · exact absurd rfl h
    · next notOpen => simpa using notOpen

theorem plain_of_opens {input : Bytes} (h : opens input = true) :
    plain input = ⟨[], true, input⟩ := by
  cases input with
  | nil => rfl
  | cons b rest => rw [plain, if_pos h]

theorem Token.before_of_comment (token : Token) (h : token.kind = .comment) (rest : List Token) :
    token.before rest = rest := by simp [before, h]

theorem Token.before_of_texts (token next : Token) (h : token.kind = .text)
    (more : next.kind = .text) (rest : List Token) :
    token.before (next :: rest) = ⟨.text, token.bytes ++ next.bytes, true⟩ :: rest := by
  obtain ⟨kind, bytes, closed⟩ := next
  obtain rfl : kind = .text := more
  simp [before, h]

theorem Token.before_of_apart (token : Token) (notComment : token.kind ≠ .comment)
    (rest : List Token)
    (apart : token.kind = .text → ∀ next ∈ rest.head?, next.kind ≠ .text) :
    token.before rest = token :: rest := by
  unfold before
  split
  · next isComment => exact absurd isComment notComment
  · next isText => exact absurd rfl (apart isText _ rfl)
  · rfl

theorem Token.before_cases (token : Token) (rest : List Token) :
    (token.kind = .comment ∧ token.before rest = rest) ∨
    (∃ next more, token.kind = .text ∧ next.kind = .text ∧ rest = next :: more ∧
      token.before rest = ⟨.text, token.bytes ++ next.bytes, true⟩ :: more) ∨
    (token.kind ≠ .comment ∧ token.before rest = token :: rest) := by
  by_cases isComment : token.kind = .comment
  · exact .inl ⟨isComment, token.before_of_comment isComment rest⟩
  · by_cases meet : token.kind = .text ∧ ∃ next ∈ rest.head?, next.kind = .text
    · obtain ⟨isText, next, head, more⟩ := meet
      obtain ⟨others, rfl⟩ := List.head?_eq_some_iff.mp head
      exact .inr (.inl ⟨next, others, isText, more, rfl,
        token.before_of_texts next isText more others⟩)
    · refine .inr (.inr ⟨isComment, token.before_of_apart isComment rest ?_⟩)
      intro isText next head more
      exact meet ⟨isText, next, head, more⟩

theorem tokens_text_append {text after : Bytes} (nonempty : text ≠ [])
    (h : plain (text ++ after) = ⟨text ++ (plain after).taken, true, (plain after).rest⟩) :
    tokens (text ++ after) = Token.before ⟨.text, text, true⟩ (tokens after) := by
  have notOpen : opens (text ++ after) = false := by
    refine not_opens_of_taken ?_
    rw [h]
    simp [nonempty]
  rw [tokens_of_text (by simp [nonempty]) notOpen, h]
  cases open? : opens after with
  | true =>
    obtain ⟨kind, span, begins⟩ := exists_opening open?
    have notText := begins.kind_ne_text
    rw [begins.tokens_eq, Token.before_of_apart _ (by simp) _ (by simpa using notText),
      plain_of_opens open?, ← begins.tokens_eq]
    simp
  | false =>
    by_cases empty : after = []
    · subst empty
      simp [plain, Token.before]
    · rw [tokens_of_text empty open?]
      rfl

theorem tokens_strip (input : Bytes) : tokens (strip input) = uncommented (tokens input) := by
  induction input using tokens_induction with
  | nil => simp [strip, uncommented]
  | opening input kind span begins ih =>
    rw [begins.tokens_eq, strip_of_opening begins]
    by_cases isComment : kind = .comment
    · subst isComment
      rw [if_pos rfl, ih]
      exact (Token.before_of_comment ⟨.comment, span.taken, span.closed⟩ rfl _).symm
    · have notText := begins.kind_ne_text
      rw [if_neg isComment, begins.again.tokens_eq, ih]
      exact (Token.before_of_apart _ isComment _ (absurd · notText)).symm
  | text input nonempty notOpen ih =>
    rw [tokens_of_text nonempty notOpen, strip_of_text nonempty notOpen,
      tokens_text_append (plain_taken_ne_nil nonempty notOpen) (plain_again opens_last_strip), ih]
    rfl

theorem kind_of_mem_before {token other : Token} {rest : List Token} (h : other ∈ token.before rest)
    (none : ∀ t ∈ rest, t.kind ≠ .comment) : other.kind ≠ .comment := by
  rcases token.before_cases rest with ⟨-, eq⟩ | ⟨next, more, -, -, rfl, eq⟩ | ⟨notComment, eq⟩
  · rw [eq] at h
    exact none other h
  · rw [eq] at h
    rcases List.mem_cons.mp h with rfl | h
    · simp
    · exact none other (List.mem_cons_of_mem _ h)
  · rw [eq] at h
    rcases List.mem_cons.mp h with rfl | h
    · exact notComment
    · exact none other h

theorem kind_of_mem_uncommented {tokens : List Token} {token : Token}
    (h : token ∈ uncommented tokens) : token.kind ≠ .comment := by
  induction tokens generalizing token with
  | nil => simp [uncommented] at h
  | cons first rest ih => exact kind_of_mem_before h fun _ => ih

theorem literals_before (token : Token) (rest : List Token) :
    (token.before rest).filter Token.isLiteral = (token :: rest).filter Token.isLiteral := by
  rcases token.before_cases rest with
    ⟨isComment, eq⟩ | ⟨next, more, isText, moreText, rfl, eq⟩ | ⟨-, eq⟩
  · simp [eq, Token.isLiteral, isComment]
  · simp [eq, Token.isLiteral, isText, moreText]
  · rw [eq]

theorem literals_uncommented (tokens : List Token) :
    (uncommented tokens).filter Token.isLiteral = tokens.filter Token.isLiteral := by
  induction tokens with
  | nil => rfl
  | cons first rest ih =>
    calc (first.before (uncommented rest)).filter Token.isLiteral
      _ = (first :: uncommented rest).filter Token.isLiteral := literals_before first _
      _ = (first :: rest).filter Token.isLiteral := by simp only [List.filter_cons, ih]

theorem kind_of_mem_tokens_strip {input : Bytes} {token : Token}
    (h : token ∈ tokens (strip input)) : token.kind ≠ .comment := by
  rw [tokens_strip] at h
  exact kind_of_mem_uncommented h

theorem strip_strip (input : Bytes) : strip (strip input) = strip input := by
  have all : ∀ token ∈ tokens (strip input), decide (token.kind ≠ .comment) = true := by
    intro token h
    exact decide_eq_true (kind_of_mem_tokens_strip h)
  rw [strip, List.filter_eq_self.mpr all, flatMap_tokens]

theorem textClosed_before {token : Token} {rest : List Token} (h : TextClosed (token :: rest)) :
    TextClosed (token.before rest) := by
  have closed : TextClosed rest := fun other inside => h other (List.mem_cons_of_mem _ inside)
  rcases token.before_cases rest with ⟨-, eq⟩ | ⟨next, more, -, -, rfl, eq⟩ | ⟨-, eq⟩
  · rwa [eq]
  · rw [eq]
    rintro other (_ | ⟨_, inside⟩)
    · exact fun _ => rfl
    · exact closed other (List.mem_cons_of_mem _ inside)
  · rwa [eq]

theorem textClosed_uncommented {tokens : List Token} (h : TextClosed tokens) :
    TextClosed (uncommented tokens) := by
  induction tokens with
  | nil => exact h
  | cons first rest ih =>
    refine textClosed_before ?_
    rintro token (_ | ⟨_, inside⟩)
    · exact h first List.mem_cons_self
    · exact ih (fun token inside => h token (List.mem_cons_of_mem _ inside)) token inside

theorem faultsFrom_before {token : Token} {rest : List Token}
    (closed : TextClosed (token :: rest)) (offset : Nat) :
    faultsFrom offset (token.before rest) =
      if token.kind = .comment then faultsFrom offset rest
      else faultsFrom offset (token :: rest) := by
  rcases token.before_cases rest with
    ⟨isComment, eq⟩ | ⟨next, more, isText, moreText, rfl, eq⟩ | ⟨notComment, eq⟩
  · rw [eq, if_pos isComment]
  · have first := closed token (by simp) isText
    have second := closed next (by simp) moreText
    rw [eq, if_neg (by simp [isText]), faultsFrom_cons, faultsFrom_cons, faultsFrom_cons]
    simp [Token.fault?, first, second, Nat.add_assoc]
  · rw [eq, if_neg notComment]

/-- The faults of literals, each as far to the front as there are bytes of comments before it. -/
theorem faultsFrom_uncommented {tokens : List Token} (closed : TextClosed tokens) :
    faultsFrom 0 (uncommented tokens) =
      ((faultsFrom 0 tokens).filter (·.2 = .openLiteral)).map fun (place, fault) =>
        (place - commentsBefore tokens place, fault) := by
  induction tokens with
  | nil => rfl
  | cons first rest ih =>
    have closedRest : TextClosed rest := fun token inside =>
      closed token (List.mem_cons_of_mem _ inside)
    have closedFirst : TextClosed (first :: uncommented rest) := by
      rintro token (_ | ⟨_, inside⟩)
      · exact closed first List.mem_cons_self
      · exact textClosed_uncommented closedRest token inside
    change faultsFrom 0 (first.before (uncommented rest)) = _
    rw [faultsFrom_before closedFirst, faultsFrom_cons, faultsFrom_cons, faultsFrom_add,
      faultsFrom_add, ih closedRest, List.filter_append, List.filter_map, List.map_append,
      List.map_map, List.map_map]
    have sameFaults : ((fun p : Nat × Fault => decide (p.2 = .openLiteral)) ∘
        fun p : Nat × Fault => (p.1 + first.bytes.length, p.2)) =
        fun p => decide (p.2 = .openLiteral) := rfl
    rw [sameFaults, first.filter_fault?]
    by_cases isComment : first.kind = .comment
    · rw [if_pos isComment, if_pos isComment]
      refine List.map_congr_left fun p _ => Prod.ext ?_ rfl
      change p.1 - commentsBefore rest p.1 =
        p.1 + first.bytes.length - commentsBefore (first :: rest) (p.1 + first.bytes.length)
      rw [commentsBefore_cons, if_pos isComment]
      omega
    · rw [if_neg isComment, if_neg isComment]
      congr 1
      · cases eq : first.fault? <;> simp
      · refine List.map_congr_left fun p _ => Prod.ext ?_ rfl
        change p.1 - commentsBefore rest p.1 + first.bytes.length =
          p.1 + first.bytes.length - commentsBefore (first :: rest) (p.1 + first.bytes.length)
        have bound := commentsBefore_le rest p.1
        rw [commentsBefore_cons, if_neg isComment]
        omega

/-- Stripping is stable: what is left has no comments, the same literals and the same
faults of literals, and is neither stripped further nor counted otherwise. -/
theorem strip_stable (input : Bytes) :
    (∀ token ∈ tokens (strip input), token.kind ≠ .comment) ∧
    (tokens (strip input)).filter Token.isLiteral = (tokens input).filter Token.isLiteral ∧
    faults (strip input) = ((faults input).filter (·.2 = .openLiteral)).map
      (fun (place, fault) => (place - commentsBefore (tokens input) place, fault)) ∧
    strip (strip input) = strip input ∧
    countLines (strip input) = countLines input := by
  refine ⟨fun token => kind_of_mem_tokens_strip, ?_, ?_, strip_strip input, ?_⟩
  · rw [tokens_strip, literals_uncommented]
  · have moved := faultsFrom_uncommented (textClosed_tokens input)
    rwa [← tokens_strip] at moved
  · rw [countLines, strip_strip, countLines]

end IndexCoverage.Source
