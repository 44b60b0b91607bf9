import IndexCoverage.Text.CodePoint
import Mathlib.Data.List.Basic

/-! Cutting text and putting parts together. A cut is made at the first separator, or at the last
one; where there is none the text stays whole. Between parts that are put together stands the
separator, and nothing else is added. -/

namespace IndexCoverage
namespace Text

variable {separator : CodePoint}

theorem cut_append {s : Text} (h : separator ∉ s) (rest : Text) :
    cut separator (s ++ rest) = (s ++ (cut separator rest).1, (cut separator rest).2) := by
  induction s with
  | nil => rfl
  | cons c s ih =>
    obtain ⟨other, absent⟩ := not_or.mp (List.mem_cons.not.mp h)
    rw [List.cons_append, cut, if_neg (Ne.symm other), ih absent]
    rfl

theorem cut_of_notMem {s : Text} (h : separator ∉ s) : cut separator s = (s, none) := by
  simpa [cut] using cut_append h []

theorem cut_append_cons {s : Text} (h : separator ∉ s) (rest : Text) :
    cut separator (s ++ separator :: rest) = (s, some rest) := by
  simpa [cut] using cut_append h (separator :: rest)

theorem cut_cases (separator : CodePoint) (s : Text) :
    separator ∉ s ∧ cut separator s = (s, none) ∨
      ∃ before after, s = before ++ separator :: after ∧ separator ∉ before ∧
        cut separator s = (before, some after) := by
  by_cases inside : separator ∈ s
  · obtain ⟨before, after, rfl, absent⟩ := List.eq_append_cons_of_mem inside
    exact .inr ⟨before, after, rfl, absent, cut_append_cons absent after⟩
  · exact .inl ⟨inside, cut_of_notMem inside⟩

theorem notMem_fst_cut (separator : CodePoint) (s : Text) : separator ∉ (cut separator s).1 := by
  rcases cut_cases separator s with ⟨absent, whole⟩ | ⟨before, after, -, absent, parts⟩
  · rwa [whole]
  · rwa [parts]

theorem fst_cut_prefix (separator : CodePoint) (s : Text) : (cut separator s).1 <+: s := by
  rcases cut_cases separator s with ⟨-, whole⟩ | ⟨before, after, rfl, -, parts⟩
  · simp [whole]
  · rw [parts]
    exact List.prefix_append ..

theorem suffix_of_snd_cut {s after : Text} (h : (cut separator s).2 = some after) :
    after <:+ s := by
  rcases cut_cases separator s with ⟨-, whole⟩ | ⟨before, rest, rfl, -, parts⟩
  · rw [whole] at h
    cases h
  · rw [parts] at h
    obtain rfl := Option.some.inj h
    exact ⟨before ++ [separator], by simp⟩

theorem head?_splitOn (separator : CodePoint) (s : Text) :
    (splitOn separator s).head? = some (cut separator s).1 := by
  rcases cut_cases separator s with ⟨absent, whole⟩ | ⟨before, after, rfl, absent, parts⟩
  · rw [splitOn_of_notMem absent, whole]
    rfl
  · rw [splitOn_append_cons, splitOn_of_notMem absent, parts]
    rfl

theorem cutLast_of_notMem {s : Text} (h : separator ∉ s) : cutLast separator s = (none, s) := by
  rw [cutLast, cut_of_notMem (by simpa using h)]
  exact congrArg _ (List.reverse_reverse s)

theorem cutLast_append_cons (s : Text) {rest : Text} (h : separator ∉ rest) :
    cutLast separator (s ++ separator :: rest) = (some s, rest) := by
  have turned : (s ++ separator :: rest).reverse = rest.reverse ++ separator :: s.reverse := by simp
  rw [cutLast, turned, cut_append_cons (by simpa using h)]
  simp

theorem snd_cutLast_suffix (separator : CodePoint) (s : Text) : (cutLast separator s).2 <:+ s := by
  by_cases inside : separator ∈ s.reverse
  · obtain ⟨behind, front, turned, absent⟩ := List.eq_append_cons_of_mem inside
    have whole : s = front.reverse ++ separator :: behind.reverse := by
      rw [← List.reverse_reverse s, turned]
      simp
    rw [whole, cutLast_append_cons _ (by simpa using absent)]
    exact ⟨front.reverse ++ [separator], by simp⟩
  · simp [cutLast_of_notMem (List.mem_reverse.not.mp inside)]

theorem dropWhile_eq_self {test : CodePoint → Bool} {s : Text}
    (h : ∀ c ∈ s.head?, test c = false) : s.dropWhile test = s := by
  cases s with
  | nil => rfl
  | cons c rest => exact List.dropWhile_cons_of_neg (by simp [h c rfl])

theorem dropEndWhile_concat_of_neg {test : CodePoint → Bool} {c : CodePoint} (h : test c = false)
    (s : Text) : dropEndWhile test (s ++ [c]) = s ++ [c] := by
  simp [dropEndWhile, h]

theorem dropEndWhile_append_of_all {test : CodePoint → Bool} {tail : Text}
    (all : ∀ c ∈ tail, test c = true) (s : Text) :
    dropEndWhile test (s ++ tail) = dropEndWhile test s := by
  simp only [dropEndWhile, List.reverse_append]
  rw [List.dropWhile_append_of_pos (by simpa using all)]

theorem mem_intercalate {c : CodePoint} {parts : List Text}
    (h : c ∈ List.intercalate [separator] parts) : c = separator ∨ ∃ part ∈ parts, c ∈ part := by
  induction parts with
  | nil => simp at h
  | cons part rest ih =>
    cases rest with
    | nil => exact .inr ⟨part, by simp, by simpa using h⟩
    | cons next rest =>
      rw [List.intercalate_cons_cons, List.mem_append, List.mem_append, List.mem_singleton] at h
      rcases h with (here | same) | later
      · exact .inr ⟨part, by simp, here⟩
      · exact .inl same
      · exact (ih later).imp_right fun ⟨other, inside, there⟩ =>
          ⟨other, List.mem_cons_of_mem _ inside, there⟩

theorem mem_intercalate_of_mem {c : CodePoint} {parts : List Text} {part : Text}
    (inside : part ∈ parts) (h : c ∈ part) : c ∈ List.intercalate [separator] parts := by
  induction parts with
  | nil => simp at inside
  | cons first rest ih =>
    cases rest with
    | nil =>
      obtain rfl := List.mem_singleton.mp inside
      simpa using h
    | cons next rest =>
      rw [List.intercalate_cons_cons, List.mem_append, List.mem_append]
      rcases List.mem_cons.mp inside with rfl | later
      · exact .inl (.inl h)
      · exact .inr (ih later)

theorem intercalate_sublist (separator : CodePoint) {parts more : List Text}
    (h : parts.Sublist more) :
    (List.intercalate [separator] parts).Sublist (List.intercalate [separator] more) := by
  induction h with
  | slnil => exact .slnil
  | @cons parts more part left ih =>
    cases more with
    | nil => simp [List.sublist_nil.mp left]
    | cons next more =>
      rw [List.intercalate_cons_cons]
      exact ih.trans (List.sublist_append_right ..)
  | @cons_cons parts more part left ih =>
    cases parts with
    | nil =>
      cases more with
      | nil => exact .refl _
      | cons next more =>
        rw [List.intercalate_singleton, List.intercalate_cons_cons, List.append_assoc]
        exact List.sublist_append_left ..
    | cons other parts =>
      have some : more ≠ [] := fun none => by simp [none] at left
      rw [List.intercalate_cons_cons, List.intercalate_cons_of_ne_nil some]
      exact ih.append_left _

theorem cons_suffix_cons_intercalate (separator : CodePoint) (parts : List Text) (part : Text) :
    separator :: part <:+ separator :: List.intercalate [separator] (parts ++ [part]) := by
  induction parts with
  | nil => simp
  | cons first parts ih =>
    rw [List.cons_append, List.intercalate_cons_of_ne_nil (by simp), List.append_assoc,
      List.singleton_append, ← List.cons_append]
    exact ih.trans (List.suffix_append ..)

theorem suffix_intercalate (separator : CodePoint) (parts : List Text) (part : Text) :
    part <:+ List.intercalate [separator] (parts ++ [part]) := by
  rcases List.suffix_cons_iff.mp (cons_suffix_cons_intercalate separator parts part) with
    whole | inside
  · exact (List.cons.inj whole).2 ▸ List.suffix_refl _
  · exact (List.suffix_cons ..).trans inside

end Text
end IndexCoverage
