import IndexCoverage.Source.Token

/-! Dividing source bytes into tokens. Comments and literals begin at the first
place where one can; text is all that lies between. Every token leaves a shorter
rest, and nothing is lost: the tokens put together are the input. -/

namespace IndexCoverage.Source

def special? : Bytes → Option (Kind × Span)
  | [] => none
  | b :: rest =>
    if b = slash then
      match rest with
      | [] => none
      | c :: rest =>
        if c = slash then some (.comment, ((Span.line rest).push c).push b)
        else if c = star then some (.comment, ((Span.block rest).push c).push b)
        else none
    else if b = doubleQuote then some (.string, (Span.quoted b rest).push b)
    else if b = singleQuote then some (.char, (Span.quoted b rest).push b)
    else if b = backtick then some (.rawString, (Span.raw b rest).push b)
    else none

def opens : Bytes → Bool
  | [] => false
  | b :: rest =>
    (b = slash && (rest.head? = some slash || rest.head? = some star)) ||
      b = doubleQuote || b = singleQuote || b = backtick

def plain : Bytes → Span
  | [] => ⟨[], true, []⟩
  | b :: rest => if opens (b :: rest) then ⟨[], true, b :: rest⟩ else (plain rest).push b

theorem plain_append (input : Bytes) : (plain input).taken ++ (plain input).rest = input := by
  induction input with
  | nil => rfl
  | cons b rest ih => rw [plain]; split <;> simp [ih]

theorem special?_append {input : Bytes} {kind : Kind} {span : Span}
    (h : special? input = some (kind, span)) :
    span.taken ++ span.rest = input ∧ span.taken ≠ [] := by
  revert h
  fun_cases special? input
  all_goals
    intro h
    simp_all
  all_goals
    obtain ⟨-, rfl⟩ := h
    simp [Span.line_append, Span.block_append, Span.quoted_append, Span.raw_append]

theorem opens_eq_isSome (input : Bytes) : opens input = (special? input).isSome := by
  fun_cases special? input <;> simp_all [opens, slash, doubleQuote, singleQuote, backtick]

def next? (input : Bytes) : Option (Token × Bytes) :=
  match special? input with
  | some (kind, span) => some (⟨kind, span.taken, span.closed⟩, span.rest)
  | none =>
    match plain input with
    | ⟨[], _, _⟩ => none
    | ⟨taken, closed, rest⟩ => some (⟨.text, taken, closed⟩, rest)

theorem next?_append {input rest : Bytes} {token : Token} (h : next? input = some (token, rest)) :
    token.bytes ++ rest = input ∧ token.bytes ≠ [] := by
  unfold next? at h
  split at h
  · next kind span special =>
    obtain ⟨rfl, rfl⟩ := by simpa using h
    exact special?_append special
  · split at h
    · simp at h
    · next taken closed left nonempty eq =>
      obtain ⟨rfl, rfl⟩ := by simpa using h
      have all := plain_append input
      rw [eq] at all
      exact ⟨all, by simpa using nonempty⟩

theorem length_lt_of_next? {input rest : Bytes} {token : Token}
    (h : next? input = some (token, rest)) : rest.length < input.length := by
  obtain ⟨all, nonempty⟩ := next?_append h
  have := List.length_pos_iff.mpr nonempty
  rw [← all, List.length_append]
  omega

def tokens (input : Bytes) : List Token :=
  match h : next? input with
  | none => []
  | some (token, rest) =>
    have := length_lt_of_next? h
    token :: tokens rest
termination_by input.length

theorem next?_eq_none {input : Bytes} : next? input = none ↔ input = [] := by
  constructor
  · intro h
    unfold next? at h
    split at h
    · simp at h
    · next notSpecial =>
      split at h
      · next closed rest eq =>
        have all := plain_append input
        rw [eq] at all
        cases input with
        | nil => rfl
        | cons b tail =>
          have notOpen : opens (b :: tail) = false := by
            rw [opens_eq_isSome, notSpecial]
            rfl
          rw [plain, notOpen] at eq
          simp [Span.push] at eq
      · simp at h
  · rintro rfl
    rfl

theorem flatMap_tokens (input : Bytes) : (tokens input).flatMap Token.bytes = input := by
  fun_induction tokens input with
  | case1 input h => simp [next?_eq_none.mp h]
  | case2 input token rest h _ ih =>
    rw [List.flatMap_cons, ih]
    exact (next?_append h).1

inductive Fault where
  | openComment
  | openLiteral
  deriving DecidableEq

def Fault.message : Fault → Text
  | openComment => "comment not terminated"
  | openLiteral => "literal not terminated"

def Token.fault? (token : Token) : Option Fault :=
  if token.closed then none
  else if token.kind = .comment then some .openComment
  else some .openLiteral

def placed (offset : Nat) : List Token → List (Nat × Token)
  | [] => []
  | token :: rest => (offset, token) :: placed (offset + token.bytes.length) rest

def faults (input : Bytes) : List (Nat × Fault) :=
  (placed 0 (tokens input)).filterMap fun (offset, token) => token.fault?.map (offset, ·)

/-- What is known of the errors while a scan goes on: how many there were, and what a handler has
made of them. -/
structure Errors (σ : Type) where
  count : Nat
  handled : σ

/-- An error is counted, and the handler is told its offset and message. -/
def Errors.add {σ : Type} (handler : σ → Nat → Text → σ) (errors : Errors σ) (offset : Nat)
    (fault : Fault) : Errors σ where
  count := errors.count + 1
  handled := handler errors.handled offset fault.message

/-- The tokens of what begins at an offset, taken one by one. Where a token lacks its end, the
error is met before the token is given. -/
def scanFrom {σ : Type} (handler : σ → Nat → Text → σ) (offset : Nat) (input : Bytes) :
    StateM (Errors σ) (List Token) :=
  match h : next? input with
  | none => return []
  | some (token, rest) => do
    have := length_lt_of_next? h
    if let some fault := token.fault? then
      modify fun errors => errors.add handler offset fault
    let others ← scanFrom handler (offset + token.bytes.length) rest
    return token :: others
termination_by input.length

/-- A scan of the whole input, with a handler for the errors. One that changes nothing is as good
as none. -/
def scan {σ : Type} (handler : σ → Nat → Text → σ) (input : Bytes) :
    StateM (Errors σ) (List Token) := scanFrom handler 0 input

def strip (input : Bytes) : Bytes :=
  ((tokens input).filter (·.kind ≠ .comment)).flatMap Token.bytes

end IndexCoverage.Source
