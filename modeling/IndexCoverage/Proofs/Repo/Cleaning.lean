import IndexCoverage.Proofs.Repo.Segments

/-! What cleaning leaves of a path: tidy segments behind the slashes that it keeps in front. It is
no longer than the path, and a path that is of this form already stays as it is. -/

namespace IndexCoverage
namespace Url

def segmentsOf (path : Text) : List Text :=
  (Text.splitOn slash path).foldl (addSegment (!(leadingSlashes path).isEmpty)) []

def cleanPath (path : Text) : Text := dropEndSlashes (normalizePath (dropBareSuffix path))

variable {path lead rest tail : Text}

section Lead

theorem eq_slash_of_mem_takeWhile (path : Text) : ∀ c ∈ path.takeWhile (· = slash), c = slash := by
  intro c inside
  simpa using List.all_eq_true.mp List.all_takeWhile c inside

theorem takeWhile_slash_append (all : ∀ c ∈ lead, c = slash) (clear : rest.head? ≠ some slash) :
    (lead ++ rest).takeWhile (· = slash) = lead := by
  have stops : rest.takeWhile (· = slash) = [] := by
    cases rest with
    | nil => rfl
    | cons c rest => exact List.takeWhile_cons_of_neg (by simpa using clear)
  rw [List.takeWhile_append_of_pos (by simpa using all), stops, List.append_nil]

theorem leadingSlashes_append (all : ∀ c ∈ lead, c = slash) (clear : rest.head? ≠ some slash) :
    leadingSlashes (lead ++ rest) = leadingSlashes lead := by
  have alone : (lead ++ []).takeWhile (· = slash) = lead := takeWhile_slash_append all (by simp)
  rw [List.append_nil] at alone
  rw [leadingSlashes, leadingSlashes, takeWhile_slash_append all clear, alone]

theorem leadingSlashes_sublist (path : Text) :
    (leadingSlashes path).Sublist (path.takeWhile (· = slash)) := by
  have run := List.eq_replicate_of_mem (eq_slash_of_mem_takeWhile path)
  unfold leadingSlashes
  split
  · exact List.nil_sublist _
  · next two =>
    rw [run, two]
    exact .refl _
  · next some _ =>
    rw [run, List.sublist_replicate_iff]
    exact ⟨1, Nat.one_le_iff_ne_zero.mpr some, rfl⟩

theorem leadingSlashes_eq_nil_iff : leadingSlashes path = [] ↔ path.head? ≠ some slash := by
  have run : path.takeWhile (· = slash) = [] ↔ path.head? ≠ some slash := by
    cases path with
    | nil => simp
    | cons c path => by_cases same : c = slash <;> simp [same]
  rw [← run]
  constructor
  · unfold leadingSlashes
    intro none
    split at none
    · next empty => exact List.length_eq_zero_iff.mp empty
    · simp at none
    · simp at none
  · intro none
    exact List.sublist_nil.mp (none ▸ leadingSlashes_sublist path)

end Lead

section Segments

theorem tidy_segmentsOf (path : Text) : Tidy (!(leadingSlashes path).isEmpty) (segmentsOf path) :=
  (tidy_nil _).foldl_addSegment fun _ inside => Text.not_mem_of_mem_splitOn inside

theorem foldl_splitOn_slashes_append (all : ∀ c ∈ lead, c = slash) (rooted : Bool)
    (done : List Text) (path : Text) :
    (Text.splitOn slash (lead ++ path)).foldl (addSegment rooted) done =
      (Text.splitOn slash path).foldl (addSegment rooted) done := by
  induction lead with
  | nil => rfl
  | cons c lead ih =>
    obtain ⟨rfl, others⟩ := List.forall_mem_cons.mp all
    rw [List.cons_append, Text.splitOn, if_pos rfl, List.foldl_cons,
      addSegment_of_idle (.inl rfl), ih others]

theorem foldl_splitOn_append_slashes (all : ∀ c ∈ tail, c = slash) (rooted : Bool)
    (done : List Text) (path : Text) :
    (Text.splitOn slash (path ++ tail)).foldl (addSegment rooted) done =
      (Text.splitOn slash path).foldl (addSegment rooted) done := by
  cases tail with
  | nil => rw [List.append_nil]
  | cons c tail =>
    obtain ⟨rfl, others⟩ := List.forall_mem_cons.mp all
    have idle := foldl_splitOn_slashes_append others rooted
      ((Text.splitOn slash path).foldl (addSegment rooted) done) []
    rw [List.append_nil] at idle
    rw [Text.splitOn_append_cons, List.foldl_append, idle]
    change addSegment rooted _ [] = _
    exact addSegment_of_idle (.inl rfl)

theorem leadingSlashes_append_segmentsOf_sublist (path : Text) :
    (leadingSlashes path ++ List.intercalate [slash] (segmentsOf path)).Sublist path := by
  have whole : path.takeWhile (· = slash) ++ path.dropWhile (· = slash) = path :=
    List.takeWhile_append_dropWhile
  have behind : (segmentsOf path).Sublist (Text.splitOn slash (path.dropWhile (· = slash))) := by
    have steps := foldl_splitOn_slashes_append (eq_slash_of_mem_takeWhile path)
      (!(leadingSlashes path).isEmpty) [] (path.dropWhile (· = slash))
    rw [whole] at steps
    rw [segmentsOf, steps]
    exact foldl_addSegment_sublist _ [] _
  have joined := Text.intercalate_sublist slash behind
  rw [Text.intercalate_splitOn] at joined
  have both := (leadingSlashes_sublist path).append joined
  rwa [whole] at both

end Segments

section Ends

theorem Tidy.intercalate_ne_nil {rooted : Bool} {segments : List Text} (tidy : Tidy rooted segments)
    (some : segments ≠ []) : List.intercalate [slash] segments ≠ [] := by
  obtain ⟨first, more, rfl⟩ := List.exists_cons_of_ne_nil some
  obtain ⟨nonempty, -, -⟩ := tidy.counts first (List.mem_cons_self ..)
  obtain ⟨c, inside⟩ := List.exists_mem_of_ne_nil first nonempty
  exact List.ne_nil_of_mem (Text.mem_intercalate_of_mem (List.mem_cons_self ..) inside)

theorem dropEndSlashes_append (all : ∀ c ∈ tail, c = slash) (path : Text) :
    dropEndSlashes (path ++ tail) = dropEndSlashes path :=
  Text.dropEndWhile_append_of_all (by simpa using all) path

theorem Tidy.dropEndSlashes_append_intercalate {rooted : Bool} {segments : List Text}
    (tidy : Tidy rooted segments) (some : segments ≠ []) (lead : Text) :
    dropEndSlashes (lead ++ List.intercalate [slash] segments) =
      lead ++ List.intercalate [slash] segments := by
  obtain ⟨front, last, rfl⟩ := (List.eq_nil_or_concat' segments).resolve_left some
  obtain ⟨nonempty, -, whole⟩ := tidy.counts last (by simp)
  obtain ⟨before, ends⟩ := Text.suffix_intercalate slash front last
  obtain ⟨start, c, rfl⟩ := (List.eq_nil_or_concat' last).resolve_left nonempty
  have other : c ≠ slash := fun same => whole (by simp [same])
  rw [← ends, ← List.append_assoc, ← List.append_assoc]
  exact Text.dropEndWhile_concat_of_neg (by simpa using other) _

theorem dropBareSuffix_append (kept : Text) : dropBareSuffix (kept ++ bareSuffix) = kept := by
  have ends : Text.endsWith (kept ++ bareSuffix) bareSuffix = true :=
    List.isSuffixOf_iff_suffix.mpr (List.suffix_append ..)
  rw [dropBareSuffix, if_pos ends]
  simp

theorem dropBareSuffix_of_not (h : ¬ bareSuffix <:+ path) : dropBareSuffix path = path :=
  if_neg (mt List.isSuffixOf_iff_suffix.mp h)

theorem bareSuffix_of_suffix {last : Text} (h : bareSuffix <:+ path)
    (ends : slash :: last <:+ path) : bareSuffix <:+ last := by
  have absent : slash ∉ bareSuffix := by decide
  rcases List.suffix_or_suffix_of_suffix h ends with inside | around
  · rcases List.suffix_cons_iff.mp inside with same | inside
    · exact absurd (by rw [same]; exact List.mem_cons_self ..) absent
    · exact inside
  · exact absurd (around.subset (List.mem_cons_self ..)) absent

theorem dropBareSuffix_cases (path : Text) :
    path = dropBareSuffix path ++ bareSuffix ∨
      ¬ bareSuffix <:+ path ∧ dropBareSuffix path = path := by
  by_cases ends : bareSuffix <:+ path
  · obtain ⟨kept, rfl⟩ := ends
    exact .inl (by rw [dropBareSuffix_append])
  · exact .inr ⟨ends, dropBareSuffix_of_not ends⟩

end Ends

theorem dropEndSlashes_normalizePath (path : Text) :
    dropEndSlashes (normalizePath path) =
      if segmentsOf path = [] then if leadingSlashes path = [] then Path.dot else []
      else leadingSlashes path ++ List.intercalate [slash] (segmentsOf path) := by
  have kept : normalizePath path =
      if (leadingSlashes path ++ List.intercalate [slash] (segmentsOf path)).isEmpty then Path.dot
      else leadingSlashes path ++ List.intercalate [slash] (segmentsOf path) := rfl
  rw [kept]
  by_cases none : segmentsOf path = []
  · rw [if_pos none, none, List.intercalate_nil, List.append_nil]
    by_cases clear : leadingSlashes path = []
    · rw [if_pos clear, clear]
      rfl
    · have all : ∀ c ∈ leadingSlashes path, c = slash := fun c inside =>
        eq_slash_of_mem_takeWhile path c ((leadingSlashes_sublist path).subset inside)
      rw [if_neg clear, if_neg (by simpa using clear)]
      exact dropEndSlashes_append all []
  · have tidy := tidy_segmentsOf path
    rw [if_neg none, if_neg (by simp [tidy.intercalate_ne_nil none]),
      tidy.dropEndSlashes_append_intercalate none]

section Kept

variable {segments : List Text}

theorem Tidy.head?_intercalate {rooted : Bool} (tidy : Tidy rooted segments) (some : segments ≠ [])
    (tail : Text) : (List.intercalate [slash] segments ++ tail).head? ≠ .some slash := by
  obtain ⟨first, more, rfl⟩ := List.exists_cons_of_ne_nil some
  obtain ⟨nonempty, -, whole⟩ := tidy.counts first (List.mem_cons_self ..)
  obtain ⟨c, rest, rfl⟩ := List.exists_cons_of_ne_nil nonempty
  have other : c ≠ slash := fun same => whole (by simp [same])
  cases more <;> simpa using other

theorem dropEndSlashes_normalizePath_of_tidy (kept : leadingSlashes lead = lead)
    (tidy : Tidy (!lead.isEmpty) segments) (some : segments ≠ []) (ends : ∀ c ∈ tail, c = slash) :
    dropEndSlashes (normalizePath (lead ++ (List.intercalate [slash] segments ++ tail))) =
      lead ++ List.intercalate [slash] segments := by
  have all : ∀ c ∈ lead, c = slash := fun c inside =>
    eq_slash_of_mem_takeWhile lead c ((leadingSlashes_sublist lead).subset (kept.symm ▸ inside))
  have front := leadingSlashes_append all (tidy.head?_intercalate some tail)
  have steps : segmentsOf (lead ++ (List.intercalate [slash] segments ++ tail)) = segments := by
    rw [segmentsOf, front, kept, foldl_splitOn_slashes_append all,
      foldl_splitOn_append_slashes ends, tidy.splitOn_intercalate some]
    have along : segments.foldl (addSegment (!lead.isEmpty)) [] = [] ++ segments :=
      foldl_addSegment_of_tidy tidy
    exact along
  rw [dropEndSlashes_normalizePath, steps, if_neg some, front, kept]

theorem Tidy.cleanPath_intercalate (tidy : Tidy false segments) (some : segments ≠ [])
    (bare : ¬ bareSuffix <:+ List.intercalate [slash] segments) :
    cleanPath (List.intercalate [slash] segments) = List.intercalate [slash] segments := by
  have steps : dropEndSlashes (normalizePath ([] ++ (List.intercalate [slash] segments ++ []))) =
      [] ++ List.intercalate [slash] segments :=
    dropEndSlashes_normalizePath_of_tidy rfl tidy some (by simp)
  rw [List.nil_append, List.append_nil] at steps
  rw [cleanPath, dropBareSuffix_of_not bare]
  exact steps

end Kept

section Shape

theorem leadingSlashes_cases (path : Text) :
    leadingSlashes path = [] ∨ leadingSlashes path = [slash] ∨
      leadingSlashes path = [slash, slash] := by
  unfold leadingSlashes
  split <;> simp

theorem head?_dropBareSuffix (path : Text) :
    (dropBareSuffix path).head? = some slash ↔ path.head? = some slash := by
  rcases dropBareSuffix_cases path with whole | ⟨-, same⟩
  · conv_rhs => rw [whole]
    cases dropBareSuffix path with
    | nil => decide
    | cons c kept => rfl
  · rw [same]

theorem leadingSlashes_dropBareSuffix_eq_nil_iff :
    leadingSlashes (dropBareSuffix path) = [] ↔ path.head? ≠ some slash :=
  leadingSlashes_eq_nil_iff.trans (head?_dropBareSuffix path).not

theorem tidy_of_rooted (rooted : path.head? = some slash) :
    Tidy true (segmentsOf (dropBareSuffix path)) := by
  have led := mt leadingSlashes_dropBareSuffix_eq_nil_iff.mp (not_not_intro rooted)
  have tidy := tidy_segmentsOf (dropBareSuffix path)
  rwa [show (!(leadingSlashes (dropBareSuffix path)).isEmpty) = true by simpa using led] at tidy

theorem cleanPath_of_bare (bare : path.head? ≠ some slash) :
    cleanPath path = Path.dot ∨ ∃ segments, segments ≠ [] ∧ Tidy false segments ∧
      cleanPath path = List.intercalate [slash] segments := by
  have clear := leadingSlashes_dropBareSuffix_eq_nil_iff.mpr bare
  have tidy := tidy_segmentsOf (dropBareSuffix path)
  rw [cleanPath, dropEndSlashes_normalizePath, clear]
  rw [clear] at tidy
  by_cases none : segmentsOf (dropBareSuffix path) = []
  · exact .inl (by rw [if_pos none, if_pos rfl])
  · exact .inr ⟨_, none, tidy, by rw [if_neg none, List.nil_append]⟩

theorem cleanPath_of_rooted (rooted : path.head? = some slash) :
    cleanPath path = [] ∨ ∃ segments, segments ≠ [] ∧ Tidy true segments ∧
      (cleanPath path = slash :: List.intercalate [slash] segments ∨
        cleanPath path = slash :: slash :: List.intercalate [slash] segments) := by
  have some := mt leadingSlashes_dropBareSuffix_eq_nil_iff.mp (not_not_intro rooted)
  have tidy := tidy_of_rooted rooted
  rw [cleanPath, dropEndSlashes_normalizePath, if_neg some]
  by_cases none : segmentsOf (dropBareSuffix path) = []
  · exact .inl (if_pos none)
  · refine .inr ⟨_, none, tidy, ?_⟩
    rw [if_neg none]
    rcases (leadingSlashes_cases (dropBareSuffix path)).resolve_left some with one | two
    · exact .inl (by rw [one]; rfl)
    · exact .inr (by rw [two]; rfl)

end Shape

section Size

theorem cleanPath_eq_dot_or_sublist (path : Text) :
    cleanPath path = Path.dot ∨ (cleanPath path).Sublist (dropBareSuffix path) := by
  rw [cleanPath, dropEndSlashes_normalizePath]
  split
  · split
    · exact .inl rfl
    · exact .inr (List.nil_sublist _)
  · exact .inr (leadingSlashes_append_segmentsOf_sublist _)

theorem mem_cleanPath {c : CodePoint} (inside : c ∈ cleanPath path) :
    c = .char '.' ∨ c ∈ path := by
  rcases cleanPath_eq_dot_or_sublist path with dot | kept
  · rw [dot] at inside
    exact .inl (List.mem_singleton.mp inside)
  · have before := kept.subset inside
    rcases dropBareSuffix_cases path with whole | ⟨-, same⟩
    · exact .inr (whole ▸ List.mem_append_left _ before)
    · exact .inr (same ▸ before)

theorem length_cleanPath_le (some : path ≠ []) : (cleanPath path).length ≤ path.length := by
  rcases cleanPath_eq_dot_or_sublist path with dot | kept
  · rw [dot]
    exact List.length_pos_iff.mpr some
  · refine Nat.le_trans kept.length_le ?_
    rcases dropBareSuffix_cases path with whole | ⟨-, same⟩
    · conv_rhs => rw [whole]
      exact (List.prefix_append ..).length_le
    · exact Nat.le_of_eq (congrArg _ same)

theorem not_bareSuffix_of_cleanPath_eq (fixed : cleanPath path = path) : ¬ bareSuffix <:+ path := by
  rintro ⟨kept, rfl⟩
  have shorter : kept.length < (kept ++ bareSuffix).length := by
    rw [List.length_append]
    exact Nat.lt_add_of_pos_right (by decide)
  rcases cleanPath_eq_dot_or_sublist (kept ++ bareSuffix) with dot | part
  · have long : (kept ++ bareSuffix).length = 1 := by rw [← fixed, dot]; rfl
    rw [List.length_append] at long
    exact absurd long (by simp [bareSuffix, Text.ofString])
  · rw [fixed, dropBareSuffix_append] at part
    exact absurd part.length_le (Nat.not_le.mpr shorter)

end Size

end Url
end IndexCoverage
