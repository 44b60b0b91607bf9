import IndexCoverage.Proofs.Source.Faults
import IndexCoverage.Source.Lines

/-! Lines of code, told by the lines of the input as it is: a line counts if it has a byte that
is neither blank nor in a comment. Comments are taken out before lines are counted, so that the
lines at both ends of a comment that goes on behind a newline are counted as one. No line is
counted that has no code, and if comments keep to their lines, none is left out. -/

namespace IndexCoverage.Source

section Splitting

variable {α : Type} {ends fewer keeps counts : α → Bool} {items : List α}

theorem exists_splitOnP (ends : α → Bool) (items : List α) :
    ∃ first more, items.splitOnP ends = first :: more :=
  List.exists_cons_of_ne_nil (List.splitOnP_ne_nil ends items)

theorem splitOnP_congr (h : ∀ item ∈ items, fewer item = ends item) :
    items.splitOnP fewer = items.splitOnP ends := by
  induction items with
  | nil => rfl
  | cons item rest ih =>
    have others := ih fun other inside => h other (List.mem_cons_of_mem _ inside)
    rw [List.splitOnP_cons_eq_if_modifyHead, List.splitOnP_cons_eq_if_modifyHead, others,
      h item List.mem_cons_self]

theorem splitOnP_filter (ends keeps : α → Bool) (items : List α) :
    (items.filter keeps).splitOnP ends =
      (items.splitOnP fun item => ends item && keeps item).map (·.filter keeps) := by
  induction items with
  | nil => rfl
  | cons item rest ih =>
    obtain ⟨first, more, eq⟩ := exists_splitOnP (fun item => ends item && keeps item) rest
    rw [eq, List.map_cons] at ih
    rw [List.splitOnP_cons_eq_if_modifyHead, eq]
    by_cases kept : keeps item = true <;> by_cases last : ends item = true <;>
      simp [kept, last, List.splitOnP_cons_eq_if_modifyHead, ih]

theorem splitOnP_map {β : Type} (f : β → α) (ends : α → Bool) (items : List β) :
    (items.map f).splitOnP ends = (items.splitOnP (ends ∘ f)).map (·.map f) := by
  induction items with
  | nil => rfl
  | cons item rest ih =>
    obtain ⟨first, more, eq⟩ := exists_splitOnP (ends ∘ f) rest
    rw [eq, List.map_cons] at ih
    rw [List.map_cons, List.splitOnP_cons_eq_if_modifyHead, List.splitOnP_cons_eq_if_modifyHead,
      ih, eq]
    by_cases last : ends (f item) = true <;> simp [last]

theorem countP_splitOnP_cons (ends counts : α → Bool) (item : α) (rest : List α) :
    ((item :: rest).splitOnP ends).countP (·.any counts) =
      (rest.splitOnP ends).countP (·.any counts) +
        if ends item = false ∧ counts item = true ∧
          ((rest.splitOnP ends).headD []).any counts = false then 1 else 0 := by
  obtain ⟨first, more, eq⟩ := exists_splitOnP ends rest
  rw [List.splitOnP_cons_eq_if_modifyHead, eq]
  cases ends item <;> cases here : counts item <;> cases found : first.any counts <;>
    simp [here, found]

theorem any_first_of_fewer (h : ∀ item, fewer item = true → ends item = true)
    (found : ((items.splitOnP ends).headD []).any counts = true) :
    ((items.splitOnP fewer).headD []).any counts = true := by
  induction items with
  | nil => exact found
  | cons item rest ih =>
    obtain ⟨first, more, eq⟩ := exists_splitOnP ends rest
    obtain ⟨first', more', eq'⟩ := exists_splitOnP fewer rest
    rw [List.splitOnP_cons_eq_if_modifyHead, eq] at found
    rw [List.splitOnP_cons_eq_if_modifyHead, eq']
    rw [eq, eq'] at ih
    by_cases last : ends item = true
    · simp [last] at found
    · have inner : fewer item = false := Bool.eq_false_iff.mpr fun other => last (h item other)
      simp only [last, inner, if_false, Bool.false_eq_true, List.modifyHead_cons, List.headD_cons,
        List.any_cons, Bool.or_eq_true] at found ih ⊢
      exact found.imp_right ih

theorem countP_splitOnP_le (h : ∀ item, fewer item = true → ends item = true)
    (plain : ∀ item, ends item = true → counts item = false) (items : List α) :
    (items.splitOnP fewer).countP (·.any counts) ≤
      (items.splitOnP ends).countP (·.any counts) := by
  induction items with
  | nil => exact Nat.le_refl _
  | cons item rest ih =>
    have reaches : ((rest.splitOnP ends).headD []).any counts = true → _ := any_first_of_fewer h
    rw [countP_splitOnP_cons, countP_splitOnP_cons]
    refine Nat.add_le_add ih ?_
    split
    · next new =>
      obtain ⟨-, here, none⟩ := new
      have inner : ends item = false := Bool.eq_false_iff.mpr fun last => by
        simp [plain item last] at here
      have none' : ((rest.splitOnP ends).headD []).any counts = false :=
        Bool.eq_false_iff.mpr fun found => Bool.eq_false_iff.mp none (reaches found)
      exact Nat.le_of_eq (if_pos ⟨inner, here, none'⟩).symm
    · exact Nat.zero_le _

end Splitting

def blanks : List UInt8 := [0x20, 0x09, 0x0A, 0x0B, 0x0C, 0x0D, 0x85, 0xA0]

/-- The bytes of the input, each with whether it is in a comment. What no token holds is in none. -/
def marked (input : Bytes) : List (UInt8 × Bool) :=
  input.mapIdx fun offset b => (b, (inComment (tokens input)).getD offset false)

def isCodeByte (b : UInt8 × Bool) : Bool := !b.2 && b.1 ∉ blanks

def codeLines (input : Bytes) : Nat :=
  ((marked input).splitOnP (·.1 = newline)).countP (·.any isCodeByte)

theorem isBlankByte_eq (b : UInt8) : isBlankByte b = decide (b ∈ blanks) := by
  rw [Bool.eq_iff_iff]
  simp only [isBlankByte, blanks, Bool.or_eq_true, Bool.and_eq_true,
    decide_eq_true_eq, List.mem_cons, List.not_mem_nil, or_false, ← UInt8.toNat_inj,
    UInt8.le_iff_toNat_le, UInt8.reduceToNat]
  omega

theorem lines_eq_splitOnP (input : Bytes) : lines input = input.splitOnP (· = newline) := by
  induction input with
  | nil => rfl
  | cons b rest ih =>
    obtain ⟨first, more, eq⟩ := exists_splitOnP (fun b => decide (b = newline)) rest
    rw [lines, ih, List.splitOnP_cons_eq_if_modifyHead, eq]
    simp

def Token.marked (token : Token) : List (UInt8 × Bool) :=
  token.bytes.map (·, decide (token.kind = .comment))

theorem length_inComment (tokens : List Token) :
    (inComment tokens).length = (tokens.flatMap Token.bytes).length := by
  simp [inComment, List.length_flatMap]

theorem marked_eq_zip (input : Bytes) : marked input = input.zip (inComment (tokens input)) := by
  have covers : (inComment (tokens input)).length = input.length := by
    rw [length_inComment, flatMap_tokens]
  unfold marked
  refine List.ext_getElem (by simp [covers]) fun offset here there => ?_
  have inside : offset < (inComment (tokens input)).length := by
    rw [List.length_zip] at there
    omega
  rw [List.getElem_zip, List.getElem_mapIdx, List.getD_eq_getElem?_getD,
    List.getElem?_eq_getElem inside, Option.getD_some]

theorem marked_eq (input : Bytes) : marked input = (tokens input).flatMap Token.marked := by
  have all (tokens : List Token) : (tokens.flatMap Token.bytes).zip (inComment tokens) =
      tokens.flatMap Token.marked := by
    induction tokens with
    | nil => rfl
    | cons token rest ih =>
      rw [inComment] at ih ⊢
      rw [List.flatMap_cons, List.flatMap_cons, List.zip_append (by simp), ih, List.flatMap_cons,
        Token.marked, List.map_prod_left_eq_zip, List.map_const']
  rw [marked_eq_zip, ← all, flatMap_tokens]

theorem Token.unmarked (token : Token) : (token.marked.filter (!·.2)).map Prod.fst =
    if token.kind = .comment then [] else token.bytes := by
  by_cases isComment : token.kind = .comment <;>
    simp [marked, isComment, List.filter_map, Function.comp_def]

theorem strip_eq_unmarked (input : Bytes) :
    strip input = ((marked input).filter (!·.2)).map Prod.fst := by
  rw [marked_eq, strip]
  induction tokens input with
  | nil => rfl
  | cons token rest ih =>
    rw [List.flatMap_cons, List.filter_append, List.map_append, token.unmarked, ← ih]
    by_cases isComment : token.kind = .comment <;> simp [isComment]

theorem keeps_newline {input : Bytes}
    (inLine : ∀ token ∈ tokens input, token.kind = .comment → newline ∉ token.bytes) :
    ∀ b ∈ marked input, b.1 = newline → b.2 = false := by
  intro b inside isNewline
  rw [marked_eq, List.mem_flatMap] at inside
  obtain ⟨token, found, here⟩ := inside
  obtain ⟨byte, there, rfl⟩ := List.mem_map.mp here
  exact decide_eq_false fun isComment => inLine token found isComment (isNewline ▸ there)

theorem isCode_unmarked (line : List (UInt8 × Bool)) :
    isCode ((line.filter (!·.2)).map Prod.fst) = line.any isCodeByte := by
  rw [isCode, List.any_map, List.any_filter]
  congr 1
  funext b
  simp [isCodeByte, isBlankByte_eq]

/-- Only the newlines outside of comments end the lines that are counted. -/
theorem countLines_eq (input : Bytes) :
    countLines input = ((marked input).splitOnP
      fun b => decide (b.1 = newline) && !b.2).countP (·.any isCodeByte) := by
  rw [countLines, strip_eq_unmarked, lines_eq_splitOnP, splitOnP_map, splitOnP_filter,
    List.map_map, List.countP_map]
  congr 1
  funext line
  exact isCode_unmarked line

/-- No line is counted without code of its own, and none is left out if no comment goes on
behind the end of its line. -/
theorem countLines_le_codeLines (input : Bytes) :
    countLines input ≤ codeLines input ∧
      ((∀ token ∈ tokens input, token.kind = .comment → newline ∉ token.bytes) →
        countLines input = codeLines input) := by
  rw [countLines_eq]
  constructor
  · refine countP_splitOnP_le (fun b => ?_) (fun b isNewline => ?_) (marked input)
    · simp +contextual
    · have blank : b.1 ∈ blanks := by
        rw [of_decide_eq_true isNewline]
        decide
      simp [isCodeByte, blank]
  · intro inLine
    rw [codeLines, splitOnP_congr]
    intro b inside
    by_cases isNewline : b.1 = newline
    · simp [keeps_newline inLine b inside isNewline]
    · simp [isNewline]

end IndexCoverage.Source
