import IndexCoverage.Proofs.Source.Faults
import IndexCoverage.Proofs.Source.Lexing
import IndexCoverage.Proofs.Source.Span

/-! The errors of a scan, by places in the input. A handler is told of every token that lacks its
end, once, at its start and in order. A comment or a raw string without an end goes to the end of
the input, so that there is one of them at most; a string or char without one stops at the end of
its line. -/

namespace IndexCoverage.Source

instance (input : Bytes) (place : Nat) (b : UInt8) : Decidable (Has input place b) :=
  inferInstanceAs (Decidable (_ = _))

instance decidableEscaped (input : Bytes) (start : Nat) :
    (place : Nat) → Decidable (Escaped input start place)
  | 0 => .isFalse id
  | place + 1 =>
    have := decidableEscaped input start place
    inferInstanceAs (Decidable (_ ∧ _ ∧ ¬_))

namespace Extent

def LacksQuote (quote : UInt8) (input : Bytes) (e : Extent) : Prop :=
  ∀ i < input.length, e.start < i → Has input i quote →
    Escaped input e.start i ∨ ∃ j < i, e.start < j ∧ Has input j newline

def LacksStarSlash (input : Bytes) (e : Extent) : Prop :=
  ∀ i < input.length, e.start + 2 ≤ i → Has input i star → ¬Has input (i + 1) slash

/-- A token of this kind that starts here has no end in the input. -/
def Unclosed (input : Bytes) (e : Extent) : Prop :=
  match e.kind with
  | .text => False
  | .comment => Has input (e.start + 1) star ∧ e.LacksStarSlash input
  | .string => e.LacksQuote doubleQuote input
  | .char => e.LacksQuote singleQuote input
  | .rawString => ∀ i < input.length, e.start < i → ¬Has input i backtick

instance (quote : UInt8) (input : Bytes) (e : Extent) : Decidable (e.LacksQuote quote input) :=
  inferInstanceAs (Decidable (∀ _ < _, _))

instance (input : Bytes) (e : Extent) : Decidable (e.LacksStarSlash input) :=
  inferInstanceAs (Decidable (∀ _ < _, _))

instance (input : Bytes) : (e : Extent) → Decidable (e.Unclosed input)
  | ⟨.text, _, _⟩ => .isFalse id
  | ⟨.comment, _, _⟩ => inferInstanceAs (Decidable (_ ∧ LacksStarSlash _ _))
  | ⟨.string, _, _⟩ => inferInstanceAs (Decidable (LacksQuote _ _ _))
  | ⟨.char, _, _⟩ => inferInstanceAs (Decidable (LacksQuote _ _ _))
  | ⟨.rawString, _, _⟩ => inferInstanceAs (Decidable (∀ _ < _, _))

end Extent

def unclosed (input : Bytes) : List Extent := (extents input).filter (·.Unclosed input)

def Kind.complaint : Kind → Text
  | comment => "comment not terminated"
  | _ => "literal not terminated"

/-- The kinds whose tokens go on to the end of the input if they have no end. -/
def Kind.runsOn : Kind → Bool
  | comment => true
  | rawString => true
  | _ => false

variable {whole : Bytes}

theorem LineEnd.not_newline {start stop : Nat} (line : LineEnd whole start stop) {i : Nat}
    (from_ : start ≤ i) (until_ : i < stop) : ¬Has whole i newline := by
  rcases line with ⟨place, -, -, -, none, rfl⟩ | ⟨none, rfl⟩
  · exact none i from_ until_
  · exact none i from_ until_

theorem LineEnd.end_or_newline {start stop : Nat} (line : LineEnd whole start stop) :
    stop = whole.length ∨ start ≤ stop ∧ Has whole stop newline := by
  rcases line with ⟨place, from_, -, found, -, rfl⟩ | ⟨-, rfl⟩
  · exact .inr ⟨from_, found⟩
  · exact .inl rfl

theorem Extent.lacksQuote_iff {quote : UInt8} (notNewline : quote ≠ newline) {e : Extent}
    {lineEnd : Nat} (line : LineEnd whole (e.start + 1) lineEnd) :
    e.LacksQuote quote whole ↔ ∀ i, e.start + 1 ≤ i → i < lineEnd →
      ¬(Has whole i quote ∧ ¬Escaped whole e.start i) := by
  constructor
  · rintro lacks i from_ until_ ⟨found, free⟩
    have inside : i < whole.length := (List.getElem?_eq_some_iff.mp found).1
    obtain ⟨j, before, behind, ends⟩ := (lacks i inside from_ found).resolve_left free
    exact line.not_newline behind (before.trans until_) ends
  · intro none i inside from_ found
    refine or_iff_not_imp_left.mpr fun free => ?_
    have beyond : lineEnd ≤ i := by
      by_contra short
      exact none i from_ (by omega) ⟨found, free⟩
    rcases line.end_or_newline with rfl | ⟨behind, ends⟩
    · omega
    · have apart : lineEnd ≠ i := fun same => notNewline (found.eq (same ▸ ends))
      exact ⟨lineEnd, by omega, behind, ends⟩

theorem Opening.unclosed_iff {kind : Kind} {span : Span} (before : Bytes) {input : Bytes}
    (h : Opening input kind span) (eq : before ++ input = whole) (stop : Nat) :
    Extent.Unclosed whole ⟨kind, before.length, stop⟩ ↔ span.closed = false := by
  cases h with
  | line rest =>
    have next : Has whole (before.length + 1) slash := (has_next eq slash).mpr rfl
    refine iff_of_false (fun lacks => ?_) (by simp)
    exact absurd (next.eq lacks.1) (by decide)
  | block rest =>
    have next : Has whole (before.length + 1) star := (has_next eq star).mpr rfl
    have ends := Span.block_ends (before ++ [slash, star]) rest (by simpa using eq)
    rw [Span.push_closed, Span.push_closed, ends.closed_eq_false_iff]
    simp only [List.length_append, List.length_cons, List.length_nil, Nat.zero_add, not_and]
    constructor
    · exact fun lacks i from_ inside => lacks.2 i inside from_
    · exact fun none => ⟨next, fun i inside from_ => none i from_ inside⟩
  | quoted kind quote rest quotes =>
    have notNewline := (Kind.quote?_ne quotes).1
    obtain ⟨lineEnd, line, ends⟩ := Span.quoted_ends_opened notNewline before rest eq
    have lacks : Extent.Unclosed whole ⟨kind, before.length, stop⟩ ↔
        Extent.LacksQuote quote whole ⟨kind, before.length, stop⟩ := by
      cases kind <;> simp [Kind.quote?] at quotes
      all_goals
        subst quotes
        exact Iff.rfl
    rw [Span.push_closed, ends.closed_eq_false_iff, lacks,
      Extent.lacksQuote_iff notNewline line]
  | raw rest =>
    have ends := Span.raw_ends backtick (before ++ [backtick]) rest (by simpa using eq)
    rw [Span.push_closed, ends.closed_eq_false_iff, List.length_append, List.length_singleton]
    constructor
    · exact fun lacks i from_ inside => lacks i inside from_
    · exact fun none i inside from_ => none i from_ inside

def Kind.fault : Kind → Fault
  | comment => .openComment
  | _ => .openLiteral

theorem Kind.message_fault (kind : Kind) : kind.fault.message = kind.complaint := by
  cases kind <;> rfl

theorem Token.fault?_eq (token : Token) :
    token.fault? = if token.closed = false then some token.kind.fault else none := by
  obtain ⟨kind, bytes, closed⟩ := token
  cases closed <;> cases kind <;> rfl

theorem faultsFrom_cons_extent {offset : Nat} {token : Token} {rest : List Token}
    (lacks : Extent.Unclosed whole ⟨token.kind, offset, offset + token.bytes.length⟩ ↔
      token.closed = false)
    (others : faultsFrom (offset + token.bytes.length) rest =
      ((extentsFrom (offset + token.bytes.length) rest).filter (·.Unclosed whole)).map
        fun e => (e.start, e.kind.fault)) :
    faultsFrom offset (token :: rest) =
      ((extentsFrom offset (token :: rest)).filter (·.Unclosed whole)).map
        fun e => (e.start, e.kind.fault) := by
  rw [faultsFrom_cons, extentsFrom_cons, Token.fault?_eq, others, List.filter_cons]
  simp only [lacks, decide_eq_true_eq]
  split <;> rfl

/-- The faults of what follows a place are those of its tokens that lack their end. -/
theorem faultsFrom_tokens (before input : Bytes) (eq : before ++ input = whole) :
    faultsFrom before.length (tokens input) =
      ((extentsFrom before.length (tokens input)).filter (·.Unclosed whole)).map
        fun e => (e.start, e.kind.fault) := by
  induction input using tokens_induction generalizing before with
  | nil => rw [tokens_nil]; rfl
  | opening input kind span begins ih =>
    have all := (special?_append begins.special?).1
    have others := ih (before ++ span.taken) (by rw [List.append_assoc, all, eq])
    rw [List.length_append] at others
    rw [begins.tokens_eq]
    exact faultsFrom_cons_extent (begins.unclosed_iff before eq _) others
  | text input nonempty notOpen ih =>
    have all := plain_append input
    have others := ih (before ++ (plain input).taken) (by rw [List.append_assoc, all, eq])
    rw [List.length_append] at others
    rw [tokens_of_text nonempty notOpen]
    exact faultsFrom_cons_extent (iff_of_false id (by simp)) others

theorem faults_eq (input : Bytes) :
    faults input = (unclosed input).map fun e => (e.start, e.kind.fault) :=
  faultsFrom_tokens [] input rfl

section Run

variable {σ : Type} (handler : σ → Nat → Text → σ)

theorem run_scanFrom (offset : Nat) (input : Bytes) (errors : Errors σ) :
    (scanFrom handler offset input).run errors = (tokens input,
      (faultsFrom offset (tokens input)).foldl
        (fun errors (place, fault) => errors.add handler place fault) errors) := by
  induction input using tokens.induct generalizing offset errors with
  | case1 input h =>
    rw [next?_eq_none.mp h, tokens_nil, scanFrom]
    rfl
  | case2 input token rest h _ ih =>
    rw [tokens_of_next? h, faultsFrom_cons, List.foldl_append, scanFrom]
    split
    · next none => simp [h] at none
    · next other left eq =>
      obtain ⟨rfl, rfl⟩ : token = other ∧ rest = left := by simpa [h] using eq
      have goesOn (errors : Errors σ) :=
        congrArg (fun run => (token :: run.1, run.2)) (ih (offset + token.bytes.length) errors)
      cases token.fault? with
      | none => exact goesOn errors
      | some fault => exact goesOn (errors.add handler offset fault)

theorem foldl_add (faults : List (Nat × Fault)) (errors : Errors σ) :
    faults.foldl (fun errors (place, fault) => errors.add handler place fault) errors =
      ⟨errors.count + faults.length,
        faults.foldl (fun made (place, fault) => handler made place fault.message)
          errors.handled⟩ := by
  induction faults generalizing errors with
  | nil => rfl
  | cons first rest ih =>
    rw [List.foldl_cons, ih]
    simp [Errors.add, Nat.add_assoc, Nat.add_comm 1]

end Run

namespace Tiles

variable {stop start : Nat} {parts : List Extent} {e : Extent}

theorem start_le (h : Tiles stop start parts) (inside : e ∈ parts) : start ≤ e.start := by
  induction parts generalizing start with
  | nil => simp at inside
  | cons first rest ih =>
    obtain ⟨rfl, nonempty, -, more⟩ := h
    rcases List.mem_cons.mp inside with rfl | inside
    · exact le_refl _
    · exact nonempty.le.trans (ih more inside)

theorem pairwise_start (h : Tiles stop start parts) :
    parts.Pairwise fun a b => a.start < b.start := by
  induction parts generalizing start with
  | nil => exact .nil
  | cons first rest ih =>
    obtain ⟨rfl, nonempty, -, more⟩ := h
    exact .cons (fun e inside => nonempty.trans_le (more.start_le inside)) (ih more)

theorem getLast?_eq (h : Tiles stop start parts) (inside : e ∈ parts) (toEnd : e.stop = stop) :
    parts.getLast? = some e := by
  induction parts generalizing start with
  | nil => simp at inside
  | cons first rest ih =>
    obtain ⟨-, nonempty, -, more⟩ := h
    rcases List.mem_cons.mp inside with rfl | later
    · cases rest with
      | nil => rfl
      | cons next others =>
        obtain ⟨same, longer, bound, -⟩ := more
        omega
    · rw [List.getLast?_cons, ih more later]
      rfl

end Tiles

namespace Extent

theorem Fits.stop_of_runsOn {e : Extent} (fits : e.Fits whole) (lacks : e.Unclosed whole)
    (runsOn : e.kind.runsOn = true) : e.stop = whole.length := by
  obtain ⟨kind, start, stop⟩ := e
  cases kind with
  | comment =>
    rcases fits with ⟨-, second, -⟩ | ⟨-, -, ⟨i, from_, before, found, -⟩ | ⟨-, toEnd⟩⟩
    · exact absurd (second.eq lacks.1) (by decide)
    · exact absurd found.2 (lacks.2 i before from_ found.1)
    · exact toEnd
  | rawString =>
    rcases fits with ⟨-, ⟨i, from_, before, found, -⟩ | ⟨-, toEnd⟩⟩
    · exact absurd found (lacks i before from_)
    · exact toEnd
  | _ => simp [Kind.runsOn] at runsOn

theorem IsQuoted.end_or_newline {quote : UInt8} (notNewline : quote ≠ newline) {e : Extent}
    (quoted : e.IsQuoted quote whole) (lacks : e.LacksQuote quote whole) :
    e.stop = whole.length ∨ Has whole e.stop newline := by
  obtain ⟨opens, lineEnd, line, reach⟩ := quoted
  rw [lineEnd_succ fun h => notNewline (opens.eq h)] at line
  have none := (e.lacksQuote_iff notNewline line).mp lacks
  rcases reach with ⟨i, from_, before, found, -⟩ | ⟨-, toLineEnd⟩
  · exact absurd found (none i from_ before)
  · rw [toLineEnd]
    exact line.end_or_newline.imp_right And.right

theorem Fits.end_or_newline {e : Extent} (fits : e.Fits whole) (lacks : e.Unclosed whole)
    (stops : e.kind.runsOn = false) : e.stop = whole.length ∨ Has whole e.stop newline := by
  obtain ⟨kind, start, stop⟩ := e
  cases kind with
  | text => exact lacks.elim
  | string => exact IsQuoted.end_or_newline (by decide) fits lacks
  | char => exact IsQuoted.end_or_newline (by decide) fits lacks
  | _ => simp [Kind.runsOn] at stops

end Extent

theorem lexes_extents (input : Bytes) : Lexes input (extents input) :=
  lexesFrom_extents [] input rfl

theorem mem_unclosed {input : Bytes} {e : Extent} :
    e ∈ unclosed input ↔ e ∈ extents input ∧ e.Unclosed input := by
  simp [unclosed]

theorem pairwise_unclosed (input : Bytes) :
    (unclosed input).Pairwise fun a b => a.start < b.start :=
  (lexes_extents input).tiles.pairwise_start.sublist List.filter_sublist

theorem last_of_runsOn {input : Bytes} {e : Extent} (inside : e ∈ unclosed input)
    (runsOn : e.kind.runsOn = true) :
    (extents input).getLast? = some e ∧ e.stop = input.length := by
  obtain ⟨isToken, lacks⟩ := mem_unclosed.mp inside
  have lexes := lexes_extents input
  have toEnd := (lexes.fits e isToken).stop_of_runsOn lacks runsOn
  exact ⟨lexes.tiles.getLast?_eq isToken toEnd, toEnd⟩

theorem countP_runsOn_le_one (input : Bytes) : (unclosed input).countP (·.kind.runsOn) ≤ 1 := by
  rw [List.countP_eq_length_filter]
  have apart := (pairwise_unclosed input).filter (·.kind.runsOn)
  have last : ∀ e ∈ (unclosed input).filter (·.kind.runsOn),
      (extents input).getLast? = some e := fun e inside =>
    have ⟨within, runsOn⟩ := List.mem_filter.mp inside
    (last_of_runsOn within runsOn).1
  generalize (unclosed input).filter (·.kind.runsOn) = parts at apart last
  match parts with
  | [] => simp
  | [_] => simp
  | a :: b :: rest =>
    have same : a = b := Option.some.inj ((last a (by simp)).symm.trans (last b (by simp)))
    have before := List.rel_of_pairwise_cons apart (List.mem_cons_self ..)
    exact absurd before (by simp [same])

/-- A scan tells its handler of the tokens that lack their end, once each and in order, with their
starts and what is said of their kinds, and counts them. Of those the comments and raw strings
are last, one at most, and the strings and chars stop at the end of the input or of a line. -/
theorem scan_reports {σ : Type} (handler : σ → Nat → Text → σ) (begun : σ) (input : Bytes) :
    (scan handler input).run ⟨0, begun⟩ = (tokens input,
      { count := (unclosed input).length
        handled := (unclosed input).foldl
          (fun made e => handler made e.start e.kind.complaint) begun }) ∧
    (unclosed input).Pairwise (fun a b => a.start < b.start) ∧
    (∀ e ∈ unclosed input, e.kind.runsOn = true →
      (extents input).getLast? = some e ∧ e.stop = input.length) ∧
    (unclosed input).countP (·.kind.runsOn) ≤ 1 ∧
    ∀ e ∈ unclosed input, e.kind.runsOn = false →
      e.stop = input.length ∨ Has input e.stop newline := by
  refine ⟨?_, pairwise_unclosed input, fun e => last_of_runsOn, countP_runsOn_le_one input, ?_⟩
  · rw [scan, run_scanFrom, foldl_add]
    change (tokens input, Errors.mk (0 + (faults input).length) ((faults input).foldl
      (fun made (place, fault) => handler made place fault.message) begun)) = _
    simp only [faults_eq, List.length_map, List.foldl_map, Kind.message_fault, Nat.zero_add]
  · intro e inside stops
    obtain ⟨isToken, lacks⟩ := mem_unclosed.mp inside
    exact ((lexes_extents input).fits e isToken).end_or_newline lacks stops

def cutShort : Bytes := [34, 97, 92, 34, 10, 47, 42, 47]

theorem tokens_cutShort : tokens cutShort = [⟨.string, [34, 97, 92, 34], false⟩,
    ⟨.text, [10], true⟩, ⟨.comment, [47, 42, 47], false⟩] := by
  have string : next? cutShort = some (⟨.string, [34, 97, 92, 34], false⟩, [10, 47, 42, 47]) := rfl
  have text : next? [10, 47, 42, 47] = some (⟨.text, [10], true⟩, [47, 42, 47]) := rfl
  have comment : next? [47, 42, 47] = some (⟨.comment, [47, 42, 47], false⟩, []) := rfl
  rw [tokens_of_next? string, tokens_of_next? text, tokens_of_next? comment, tokens_nil]

theorem extents_cutShort : extents cutShort =
    [⟨.string, 0, 4⟩, ⟨.text, 4, 5⟩, ⟨.comment, 5, 8⟩] := by
  rw [extents, tokens_cutShort]
  rfl

theorem unclosed_cutShort : unclosed cutShort = [⟨.string, 0, 4⟩, ⟨.comment, 5, 8⟩] := by
  rw [unclosed, extents_cutShort]
  decide

theorem scan_reports_cutShort :
    (scan (fun calls offset message => calls ++ [(offset, message)]) cutShort).run ⟨0, []⟩ =
      (tokens cutShort, ⟨2, [(0, ("literal not terminated" : Text)),
        (5, ("comment not terminated" : Text))]⟩) ∧
    (⟨.comment, 5, 8⟩ : Extent) ∈ unclosed cutShort ∧
    (extents cutShort).getLast? = some ⟨.comment, 5, 8⟩ ∧
    (⟨.string, 0, 4⟩ : Extent) ∈ unclosed cutShort ∧ Has cutShort 4 newline := by
  obtain ⟨reports, -, last, -, stops⟩ :=
    scan_reports (fun calls offset message => calls ++ [(offset, message)]) [] cutShort
  have comment : (⟨.comment, 5, 8⟩ : Extent) ∈ unclosed cutShort := by simp [unclosed_cutShort]
  have string : (⟨.string, 0, 4⟩ : Extent) ∈ unclosed cutShort := by simp [unclosed_cutShort]
  rw [unclosed_cutShort] at reports
  exact ⟨reports, comment, (last _ comment rfl).1, string,
    (stops _ string rfl).resolve_left (by decide)⟩

end IndexCoverage.Source
