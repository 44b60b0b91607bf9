import IndexCoverage.Proofs.Repo.Naming

/-! Names that are their own names. A name is taken for a URL without a scheme, whose first segment
is the host; so it is kept where it has a path behind the host, nothing that is read in another way
stands in front, and no cleaning is left to do. -/

namespace IndexCoverage
namespace Url

/-- A host without a port, a path behind it, and nothing to drop at the start, between the segments
or at the end. -/
structure Settled (name : Text) : Prop where
  leads : slash ∈ name
  portless : colon ∉ (Text.cut slash name).1
  visible : ∀ c ∈ name.head?, 32 < c.value
  stays : (Text.cut slash name).1 ≠ Path.dot
  solid : [] ∉ Text.splitOn slash name
  bare : ¬ bareSuffix <:+ name

variable {s name : Text}

section Kept

theorem tidy_splitOn (named : canonicalUri s = .ok name) (settled : Settled name) :
    Tidy false (Text.splitOn slash name) := by
  obtain ⟨-, url, parts, names⟩ := canonicalUri_eq_ok_iff.mp named
  obtain ⟨leads, -, -, stays, solid, -⟩ := settled
  cases names with
  | hosted port asked reads hostNonempty pathLeads =>
    have absent := slash_notMem_lower_hostWith parts port
    have nonempty := Text.lower_eq_nil_iff.not.mpr hostNonempty
    generalize Text.lower (hostWith url.authority port) = host at *
    rcases cleanPath_of_rooted (head?_path_of_split parts asked pathLeads.1) with
      none | ⟨segments, some, tidy, one | two⟩
    · simp [none, absent] at leads
    · rw [one, Text.cut_append_cons absent] at stays
      rw [one, Text.splitOn_append_cons, Text.splitOn_of_notMem absent,
        tidy.splitOn_intercalate some]
      exact tidy.cons_host nonempty stays absent
    · rw [two, Text.splitOn_append_cons] at solid
      exact absurd (by simp [Text.splitOn]) solid
  | bare absent whole relative inner =>
    rcases cleanPath_of_bare relative with dot | ⟨segments, some, tidy, joined⟩
    · rw [dot] at leads
      exact absurd leads (by decide)
    · rwa [joined, tidy.splitOn_intercalate some]

theorem Settled.split (settled : Settled name) (plain : ∀ c ∈ lostMarks, c ∉ name)
    (relative : name.head? ≠ some slash) : Url.split name = .ok ⟨[], name⟩ := by
  have visible : name.dropWhile (·.value ≤ 32) = name :=
    Text.dropWhile_eq_self fun c first => by simpa using settled.visible c first
  have kept : body name = name := by
    obtain ⟨first, rest, whole, absent⟩ := List.eq_append_cons_of_mem settled.leads
    have portless := settled.portless
    rw [whole, Text.cut_append_cons absent] at portless
    rw [body, clean_of_plain plain, visible, whole]
    exact dropScheme_of_slash portless rest
  have parts := split_of_relative (s := name) (by rwa [kept]) (by rwa [kept])
  rwa [kept] at parts

theorem canonicalUri_of_settled (named : canonicalUri s = .ok name) (settled : Settled name) :
    canonicalUri name = .ok name := by
  have tidy := tidy_splitOn named settled
  have some := Text.splitOn_ne_nil slash name
  have whole := Text.intercalate_splitOn slash name
  have relative : name.head? ≠ .some slash := by
    have first := tidy.head?_intercalate some []
    rwa [whole, List.append_nil] at first
  have fixed : cleanPath name = name := by
    have clean := tidy.cleanPath_intercalate some (by rw [whole]; exact settled.bare)
    rwa [whole] at clean
  have inner : hasInnerSlash name = true := by
    have front : name.dropWhile (· = slash) = name :=
      Text.dropWhile_eq_self fun c first => decide_eq_false fun same => relative (same ▸ first)
    have ends := tidy.dropEndSlashes_append_intercalate some []
    rw [whole, List.nil_append] at ends
    rw [hasInnerSlash, front, ends]
    simpa using settled.leads
  have names : Names ⟨[], name⟩ (cleanPath name) := .bare rfl settled.portless relative inner
  rw [fixed] at names
  exact names.canonicalUri (List.ne_nil_of_mem settled.leads)
    (settled.split (fun c lost => notMem_of_canonicalUri named lost) relative)

end Kept

section Fixed

theorem Settled.of_cleanPath_eq (fixed : cleanPath name = name) (relative : name.head? ≠ some slash)
    (portless : colon ∉ (Text.cut slash name).1) (visible : ∀ c ∈ name.head?, 32 < c.value)
    (leads : slash ∈ name) : Settled name := by
  obtain ⟨segments, some, tidy, joined⟩ := (cleanPath_of_bare relative).resolve_left fun dot => by
    rw [fixed] at dot
    rw [dot] at leads
    exact absurd leads (by decide)
  have parts : Text.splitOn slash name = segments := by
    rw [← fixed, joined, tidy.splitOn_intercalate some]
  have first := Text.head?_splitOn slash name
  rw [parts] at first
  obtain ⟨-, notDot, -⟩ := tidy.counts _ (List.mem_of_head? first)
  exact
    { leads, portless, visible
      stays := notDot
      solid := parts ▸ fun inside => (tidy.counts [] inside).1 rfl
      bare := not_bareSuffix_of_cleanPath_eq fixed }

theorem slash_mem_of_hasInnerSlash (inner : hasInnerSlash name = true) : slash ∈ name := by
  have inside : slash ∈ dropEndSlashes (name.dropWhile (· = slash)) := by
    simpa [hasInnerSlash] using inner
  refine (List.dropWhile_sublist (· = slash)).subset ?_
  exact List.mem_reverse.mp ((List.dropWhile_sublist _).subset (List.mem_reverse.mp inside))

/-- Two slashes in front of a host are read off, and no path grows: what has them is not its
name. -/
theorem append_cleanPath_ne {front tail host authority path : Text}
    (rooted : path.head? = some slash) (clear : slash ∉ front) (absent : slash ∉ host) :
    host ++ cleanPath path ≠ front ++ slash :: slash :: (authority ++ (path ++ tail)) := by
  intro same
  have cut := Text.cut_append_cons clear (slash :: (authority ++ (path ++ tail)))
  rw [← same] at cut
  have short : (cleanPath path).length ≤ path.length :=
    length_cleanPath_le (by rintro rfl; simp at rooted)
  have starts : cleanPath path = [] ∨ ∃ more, cleanPath path = slash :: more := by
    rcases cleanPath_of_rooted rooted with none | ⟨segments, -, -, one | two⟩
    · exact .inl none
    · exact .inr ⟨_, one⟩
    · exact .inr ⟨_, two⟩
  rcases starts with none | ⟨more, laid⟩
  · rw [none, List.append_nil, Text.cut_of_notMem absent] at cut
    cases cut
  · rw [laid, Text.cut_append_cons absent] at cut
    obtain ⟨-, behind⟩ := Prod.mk.inj cut
    rw [laid, Option.some.inj behind] at short
    simp only [List.length_cons, List.length_append] at short
    omega

theorem settled_of_canonicalUri (again : canonicalUri name = .ok name) : Settled name := by
  obtain ⟨front, whole, clear, spaces⟩ :=
    exists_append_body fun c lost => notMem_of_canonicalUri again (c := c) lost
  obtain ⟨-, url, parts, names⟩ := canonicalUri_eq_ok_iff.mp again
  obtain ⟨read, named, names⟩ : ∃ read, name = read ∧ url.Names read := ⟨name, rfl, names⟩
  cases names with
  | hosted port asked reads host leads =>
    have rooted := head?_path_of_split parts asked leads.1
    rcases split_cases parts with ⟨tail, behind, -⟩ | ⟨none, -⟩
    · exact absurd (named.symm.trans (whole.trans (congrArg (front ++ ·) behind)))
        (append_cleanPath_ne rooted clear (slash_notMem_lower_hostWith parts port))
    · exact absurd none asked
  | bare absent portless relative inner =>
    have shown : url.path <+: body name := by
      rcases split_cases parts with ⟨-, -, empty | rooted⟩ | ⟨-, shown⟩
      · rw [empty] at inner
        exact absurd (slash_mem_of_hasInnerSlash inner) List.not_mem_nil
      · exact absurd rooted relative
      · exact shown
    have leads := slash_mem_of_hasInnerSlash inner
    have short := length_cleanPath_le (List.ne_nil_of_mem leads)
    have fewer := shown.length_le
    have parted := congrArg List.length whole
    rw [List.length_append] at parted
    rw [← named] at short
    obtain rfl : front = [] := List.length_eq_zero_iff.mp (by omega)
    have all : url.path = name := (shown.eq_of_length_le (by omega)).trans whole.symm
    rw [all] at named relative portless leads
    refine .of_cleanPath_eq named.symm relative portless ?_ leads
    cases name with
    | nil => simp
    | cons c rest =>
      have first : (c :: rest).takeWhile (·.value ≤ 32) = [] := List.prefix_nil.mp spaces
      simpa [List.takeWhile_cons] using first

end Fixed

/-- The name of a URL is its own name if it is settled, and only then. -/
theorem canonicalUri_again_iff (named : canonicalUri s = .ok name) :
    canonicalUri name = .ok name ↔ Settled name :=
  ⟨settled_of_canonicalUri, canonicalUri_of_settled named⟩

theorem canonicalUri_again_of_host :
    canonicalUri "https://GitHub.com/user/repo.git" = .ok "github.com/user/repo" ∧
      canonicalUri "github.com/user/repo" = .ok "github.com/user/repo" := by
  have named : canonicalUri "https://GitHub.com/user/repo.git" = .ok "github.com/user/repo" := by
    decide +kernel
  exact ⟨named, (canonicalUri_again_iff named).mpr
    { leads := by decide
      portless := by decide
      visible := by decide
      stays := by decide
      solid := by decide
      bare := by decide }⟩

/-- In the name of a repository at a port, the host in front of the colon is taken for a scheme. -/
theorem canonicalUri_again_of_port :
    canonicalUri "ssh://git@example.com:2222/team/project.git" =
        .ok "example.com:2222/team/project" ∧
      canonicalUri "example.com:2222/team/project" = .ok "2222/team/project" ∧
      ¬ Settled "example.com:2222/team/project" :=
  ⟨by decide +kernel, by decide +kernel, fun settled => settled.portless (by decide)⟩

end Url
end IndexCoverage
