import IndexCoverage.Proofs.Text.Cutting
import IndexCoverage.Repo.Uri

/-! How a URL is split. Tabs and line ends are lost wherever they stand, what stands in front of the
two slashes is dropped, and a query and a fragment are cut off; the authority and the path are
between. -/

namespace IndexCoverage
namespace Url

def lostMarks : List CodePoint :=
  [.char '\t', .char '\r', .char '\n', .char '?', .char '#']

def joinLines (s : Text) : Text :=
  s.filter fun c => c ≠ .char '\t' && c ≠ .char '\r' && c ≠ .char '\n'

def body (s : Text) : Text := dropScheme (clean s)

variable {s rest : Text}

section Front

theorem joinLines_of_plain (plain : ∀ c ∈ lostMarks, c ∉ s) : joinLines s = s := by
  refine List.filter_eq_self.mpr fun c inside => ?_
  have other : ∀ mark ∈ lostMarks, c ≠ mark := fun mark lost same => plain mark lost (same ▸ inside)
  simp only [lostMarks, List.forall_mem_cons] at other
  simp [other]

theorem clean_eq (s : Text) : clean s = joinLines (s.dropWhile (·.value ≤ 32)) := rfl

theorem clean_of_plain (plain : ∀ c ∈ lostMarks, c ∉ s) : clean s = s.dropWhile (·.value ≤ 32) :=
  joinLines_of_plain fun c lost inside => plain c lost ((List.dropWhile_sublist _).subset inside)

theorem clean_append (starts : ∃ c ∈ s.head?, 32 < c.value) (plain : ∀ c ∈ lostMarks, c ∉ s)
    (rest : Text) : clean (s ++ rest) = s ++ joinLines rest := by
  obtain ⟨c, first, high⟩ := starts
  have stays : (s ++ rest).dropWhile (·.value ≤ 32) = s ++ rest :=
    Text.dropWhile_eq_self fun d start => by
      rw [List.head?_append, first, Option.some_or] at start
      simpa [← Option.some.inj start] using high
  have kept := joinLines_of_plain plain
  rw [clean_eq, stays]
  unfold joinLines at kept ⊢
  rw [List.filter_append, kept]

theorem mem_clean {c : CodePoint} (h : c ∈ clean s) :
    c ∈ s ∧ c ≠ .char '\t' ∧ c ≠ .char '\r' ∧ c ≠ .char '\n' := by
  obtain ⟨inside, kept⟩ := List.mem_filter.mp h
  refine ⟨(List.dropWhile_sublist _).subset inside, ?_⟩
  simpa [and_assoc] using kept

theorem dropScheme_cases (s : Text) :
    dropScheme s = s ∨ ∃ scheme : Text, s = scheme ++ colon :: dropScheme s ∧
      scheme.all isSchemeChar = true := by
  rcases Text.cut_cases colon s with ⟨-, whole⟩ | ⟨scheme, after, same, -, parts⟩
  · simp [dropScheme, whole]
  · have value : dropScheme s =
        if scheme.head?.any CodePoint.isAsciiLetter && scheme.all isSchemeChar then after
        else s := by
      simp only [dropScheme, parts]
    by_cases named : scheme.head?.any CodePoint.isAsciiLetter && scheme.all isSchemeChar
    · exact .inr ⟨scheme, by rw [value, if_pos named, ← same], (Bool.and_eq_true_iff.mp named).2⟩
    · exact .inl (value.trans (if_neg named))

theorem notMem_of_isSchemeChar {c : CodePoint} (other : isSchemeChar c = false) {scheme : Text}
    (all : scheme.all isSchemeChar = true) : c ∉ scheme := fun inside =>
  absurd (List.all_eq_true.mp all c inside) (ne_true_of_eq_false other)

theorem dropScheme_append {scheme : Text} (starts : scheme.head?.any CodePoint.isAsciiLetter = true)
    (all : scheme.all isSchemeChar = true) (rest : Text) :
    dropScheme (scheme ++ colon :: rest) = rest := by
  have absent : colon ∉ scheme := notMem_of_isSchemeChar (by decide) all
  simp only [dropScheme, Text.cut_append_cons absent, starts, all, Bool.and_self, if_true]

theorem dropScheme_of_slash {first : Text} (absent : colon ∉ first) (rest : Text) :
    dropScheme (first ++ slash :: rest) = first ++ slash :: rest := by
  rcases dropScheme_cases (first ++ slash :: rest) with same | ⟨scheme, whole, all⟩
  · exact same
  · have front := Text.cut_append absent (slash :: rest)
    rw [whole, Text.cut_append_cons (notMem_of_isSchemeChar (by decide) all)] at front
    have same : scheme = first ++ (Text.cut colon (slash :: rest)).1 := congrArg Prod.fst front
    have inside : slash ∈ scheme := by
      rw [same]
      simp [Text.cut, show slash ≠ colon by decide]
    exact absurd inside (notMem_of_isSchemeChar (by decide) all)

theorem exists_append_body (plain : ∀ c ∈ lostMarks, c ∉ s) :
    ∃ front : Text, s = front ++ body s ∧ slash ∉ front ∧
      s.takeWhile (·.value ≤ 32) <+: front := by
  have start : s.takeWhile (·.value ≤ 32) ++ clean s = s := by
    rw [clean_of_plain plain]
    exact List.takeWhile_append_dropWhile
  have low : slash ∉ s.takeWhile (·.value ≤ 32) := fun inside =>
    absurd (List.all_eq_true.mp List.all_takeWhile _ inside) (by decide)
  rcases dropScheme_cases (clean s) with same | ⟨scheme, whole, all⟩
  · exact ⟨_, by rw [body, same, start], low, List.prefix_refl _⟩
  · refine ⟨s.takeWhile (·.value ≤ 32) ++ (scheme ++ [colon]), ?_, ?_, List.prefix_append ..⟩
    · rw [body, List.append_assoc, List.append_assoc, List.singleton_append, ← whole, start]
    · have named : slash ∉ scheme := notMem_of_isSchemeChar (by decide) all
      simp [low, named, show slash ≠ colon by decide]

end Front

section Parts

variable {url : Url}

theorem splitAuthority_cases (s : Text) :
    (∃ rest, s = slash :: slash :: rest ∧
      splitAuthority s = (rest.takeWhile (!endsAuthority ·), rest.dropWhile (!endsAuthority ·))) ∨
      splitAuthority s = ([], s) := by
  unfold splitAuthority
  split
  · exact .inl ⟨_, rfl, rfl⟩
  · exact .inr rfl

def pathOf (s : Text) : Text := (Text.cut (.char '?') (Text.cut (.char '#') s).1).1

theorem pathOf_prefix (s : Text) : pathOf s <+: s :=
  (Text.fst_cut_prefix ..).trans (Text.fst_cut_prefix ..)

theorem notMem_pathOf (s : Text) : CodePoint.char '?' ∉ pathOf s ∧ CodePoint.char '#' ∉ pathOf s :=
  ⟨Text.notMem_fst_cut _ _, fun inside =>
    Text.notMem_fst_cut (.char '#') s ((Text.fst_cut_prefix ..).subset inside)⟩

theorem pathOf_append {path tail : Text} (plain : ∀ c ∈ lostMarks, c ∉ path)
    (ends : ∀ c ∈ tail.head?, c = .char '?' ∨ c = .char '#') : pathOf (path ++ tail) = path := by
  have nothing : pathOf tail = [] := by
    cases tail with
    | nil => rfl
    | cons c tail => rcases ends c rfl with rfl | rfl <;> simp [pathOf, Text.cut]
  rw [pathOf, Text.cut_append (plain _ (by decide)), Text.cut_append (plain _ (by decide))]
  change path ++ pathOf tail = path
  rw [nothing, List.append_nil]

theorem pathOf_behind_authority (s : Text) :
    pathOf (s.dropWhile (!endsAuthority ·)) = [] ∨
      (pathOf (s.dropWhile (!endsAuthority ·))).head? = some slash := by
  obtain ⟨tail, behind⟩ := pathOf_prefix (s.dropWhile (!endsAuthority ·))
  cases path : pathOf (s.dropWhile (!endsAuthority ·)) with
  | nil => exact .inl rfl
  | cons c more =>
    have ends : endsAuthority c = true := by
      have first := List.head?_dropWhile_not (!endsAuthority ·) s
      rw [← behind, path] at first
      simpa using first
    obtain ⟨noQuery, noFragment⟩ := notMem_pathOf (s.dropWhile (!endsAuthority ·))
    rw [path] at noQuery noFragment
    have other : c ≠ .char '?' ∧ c ≠ .char '#' :=
      ⟨fun same => noQuery (by simp [same]), fun same => noFragment (by simp [same])⟩
    exact .inr (by simpa [endsAuthority, other] using ends)

theorem split_eq_ok_iff :
    split s = .ok url ↔ authorityError? (splitAuthority (body s)).1 = none ∧
      ⟨(splitAuthority (body s)).1, pathOf (splitAuthority (body s)).2⟩ = url := by
  cases fault : authorityError? (splitAuthority (body s)).1 with
  | none =>
    have parts : split s =
        .ok ⟨(splitAuthority (body s)).1, pathOf (splitAuthority (body s)).2⟩ := by
      simp only [body] at fault
      simp only [split, fault, body, pathOf]
    simp [parts]
  | some e =>
    have failed : split s = .error e := by
      simp only [body] at fault
      simp only [split, fault]
    simp [failed]

/-- The authority and the path stand in the text in this order. A path behind two slashes is empty
or starts with another slash. -/
theorem split_cases (h : split s = .ok url) :
    (∃ tail, body s = slash :: slash :: (url.authority ++ (url.path ++ tail)) ∧
      (url.path = [] ∨ url.path.head? = some slash)) ∨
      url.authority = [] ∧ url.path <+: body s := by
  obtain ⟨-, rfl⟩ := split_eq_ok_iff.mp h
  rcases splitAuthority_cases (body s) with ⟨rest, whole, parts⟩ | parts
  · obtain ⟨tail, behind⟩ := pathOf_prefix (rest.dropWhile (!endsAuthority ·))
    refine .inl ⟨tail, ?_, ?_⟩
    · rw [parts, behind, List.takeWhile_append_dropWhile, whole]
    · rw [parts]
      exact pathOf_behind_authority rest
  · rw [parts]
    exact .inr ⟨rfl, pathOf_prefix _⟩

theorem not_endsAuthority {c : CodePoint} (inside : c ∈ (splitAuthority s).1) :
    endsAuthority c = false := by
  rcases splitAuthority_cases s with ⟨rest, -, parts⟩ | parts
  · rw [parts] at inside
    simpa using List.all_eq_true.mp List.all_takeWhile c inside
  · rw [parts] at inside
    cases inside

theorem mem_clean_of_split (h : split s = .ok url) {c : CodePoint}
    (inside : c ∈ url.authority ∨ c ∈ url.path) : c ∈ clean s := by
  have before : c ∈ body s := by
    rcases split_cases h with ⟨tail, whole, -⟩ | ⟨absent, front⟩
    · rw [whole]
      rcases inside with inside | inside <;> simp [inside]
    · rw [absent] at inside
      exact front.subset (inside.resolve_left List.not_mem_nil)
  rcases dropScheme_cases (clean s) with same | ⟨scheme, whole, -⟩
  · rwa [body, same] at before
  · rw [whole]
    exact List.mem_append_right _ (List.mem_cons_of_mem _ before)

theorem notMem_of_split (h : split s = .ok url) {c : CodePoint} (lost : c ∈ lostMarks) :
    c ∉ url.authority ∧ c ∉ url.path := by
  obtain ⟨-, parts⟩ := split_eq_ok_iff.mp h
  have outside : ∀ d ∈ url.authority, endsAuthority d = false := fun d inside =>
    not_endsAuthority (by rwa [← parts] at inside)
  have cutOff : CodePoint.char '?' ∉ url.path ∧ CodePoint.char '#' ∉ url.path := by
    rw [← parts]
    exact notMem_pathOf _
  simp only [lostMarks, List.mem_cons, List.not_mem_nil, or_false] at lost
  rcases lost with rfl | rfl | rfl | rfl | rfl
  · exact not_or.mp fun inside => (mem_clean (mem_clean_of_split h inside)).2.1 rfl
  · exact not_or.mp fun inside => (mem_clean (mem_clean_of_split h inside)).2.2.1 rfl
  · exact not_or.mp fun inside => (mem_clean (mem_clean_of_split h inside)).2.2.2 rfl
  · exact ⟨fun inside => absurd (outside _ inside) (by decide), cutOff.1⟩
  · exact ⟨fun inside => absurd (outside _ inside) (by decide), cutOff.2⟩

theorem slash_notMem_of_split (h : split s = .ok url) : slash ∉ url.authority := by
  obtain ⟨-, rfl⟩ := split_eq_ok_iff.mp h
  exact fun inside => absurd (not_endsAuthority inside) (by decide)

theorem split_of_body {authority path tail : Text} (sound : authorityError? authority = none)
    (inside : ∀ c ∈ authority, endsAuthority c = false) (rooted : path.head? = some slash)
    (plain : ∀ c ∈ lostMarks, c ∉ path) (ends : ∀ c ∈ tail.head?, c = .char '?' ∨ c = .char '#')
    (parts : body s = slash :: slash :: (authority ++ (path ++ tail))) :
    split s = .ok ⟨authority, path⟩ := by
  obtain ⟨more, rfl⟩ := List.head?_eq_some_iff.mp rooted
  have all : ∀ c ∈ authority, (!endsAuthority c) = true := by simpa using inside
  have stops : (!endsAuthority slash) = false := by decide
  have both : splitAuthority (body s) = (authority, slash :: more ++ tail) := by
    rw [parts]
    change ((authority ++ (slash :: (more ++ tail))).takeWhile (!endsAuthority ·),
      (authority ++ (slash :: (more ++ tail))).dropWhile (!endsAuthority ·)) = _
    rw [List.takeWhile_append_of_pos all, List.dropWhile_append_of_pos all,
      List.takeWhile_cons_of_neg (by simp [stops]), List.dropWhile_cons_of_neg (by simp [stops]),
      List.append_nil, List.cons_append]
  rw [split_eq_ok_iff, both, pathOf_append plain ends]
  exact ⟨sound, rfl⟩

theorem split_of_relative (relative : (body s).head? ≠ some slash)
    (plain : ∀ c ∈ lostMarks, c ∉ body s) : split s = .ok ⟨[], body s⟩ := by
  have both : splitAuthority (body s) = ([], body s) := by
    rcases splitAuthority_cases (body s) with ⟨rest, whole, -⟩ | parts
    · exact absurd (by rw [whole]; rfl) relative
    · exact parts
  have kept : pathOf (body s ++ []) = body s := pathOf_append plain (by simp)
  rw [List.append_nil] at kept
  rw [split_eq_ok_iff, both, kept]
  exact ⟨rfl, rfl⟩

end Parts

end Url
end IndexCoverage
