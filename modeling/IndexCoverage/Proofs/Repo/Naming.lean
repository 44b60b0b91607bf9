import IndexCoverage.Proofs.Repo.Cleaning
import IndexCoverage.Proofs.Repo.Host
import IndexCoverage.Proofs.Repo.Splitting

/-! Which URLs have a name, and what it is made of. A URL with an authority is named by its host, in
lower case, and its path; one without an authority is named by its path alone, which then holds a
host already. -/

namespace IndexCoverage
namespace Url

inductive Names (url : Url) : Text → Prop
  | hosted (port : Option Nat) (asked : url.authority ≠ [])
      (reads : port? (hostAndPort url.authority).2 = .ok port)
      (host : hostWith url.authority port ≠ [])
      (leads : url.path ≠ [] ∧ url.path ≠ [slash]) :
      Names url (Text.lower (hostWith url.authority port) ++ cleanPath url.path)
  | bare (absent : url.authority = []) (whole : colon ∉ (Text.cut slash url.path).1)
      (relative : url.path.head? ≠ some slash) (inner : hasInnerSlash url.path = true) :
      Names url (cleanPath url.path)

section Name

variable {s name : Text} {url : Url}

theorem canonicalUri_of_split (nonempty : s ≠ []) (h : split s = .ok url) :
    canonicalUri s =
      match port? (hostAndPort url.authority).2 with
      | .error e => .error e
      | .ok port =>
        if url.authority = [] ∧ colon ∈ (Text.cut slash url.path).1 then
          .error (.colonInFirstSegment s)
        else if url.path = [] ∨ url.path = [slash] then .error (.noPath s)
        else if hostWith url.authority port = [] ∧
            (url.path.head? = some slash ∨ hasInnerSlash url.path = false) then
          .error (.noHost s)
        else .ok (Text.lower (hostWith url.authority port) ++ cleanPath url.path) := by
  unfold canonicalUri
  rw [h]
  simp only [nonempty, hostWith, cleanPath, bind, Except.bind, List.isEmpty_iff, if_false]
  cases port? (hostAndPort url.authority).2 with
  | error e => rfl
  | ok port =>
    cases port <;> simp [throw, throwThe, MonadExceptOf.throw, pure, Except.pure]

theorem hostWith_nil {port : Option Nat} (reads : port? (hostAndPort []).2 = .ok port) :
    hostWith [] port = [] := by
  obtain rfl := Except.ok.inj reads
  rfl

theorem Names.of_canonicalUri (nonempty : s ≠ []) (parts : split s = .ok url)
    (h : canonicalUri s = .ok name) : url.Names name := by
  rw [canonicalUri_of_split nonempty parts] at h
  cases reads : port? (hostAndPort url.authority).2 with
  | error e => simp [reads] at h
  | ok port =>
    simp only [reads] at h
    split at h
    · cases h
    · next whole =>
      split at h
      · cases h
      · next leads =>
        split at h
        · cases h
        · next placed =>
          obtain rfl := Except.ok.inj h
          by_cases host : hostWith url.authority port = []
          · obtain ⟨relative, inner⟩ := not_or.mp fun missing => placed ⟨host, missing⟩
            have absent : url.authority = [] := by
              rcases split_cases parts with ⟨-, -, empty | rooted⟩ | ⟨absent, -⟩
              · exact absurd (.inl empty) leads
              · exact absurd rooted relative
              · exact absent
            rw [host]
            exact .bare absent (fun inside => whole ⟨absent, inside⟩) relative
              (eq_true_of_ne_false inner)
          · refine .hosted port (fun absent => host ?_) reads host (not_or.mp leads)
            rw [absent] at reads ⊢
            exact hostWith_nil reads

theorem Names.canonicalUri (nonempty : s ≠ []) (parts : split s = .ok url) (h : url.Names name) :
    canonicalUri s = .ok name := by
  rw [canonicalUri_of_split nonempty parts]
  cases h with
  | hosted port asked reads host leads =>
    simp only [reads]
    rw [if_neg fun both => asked both.1, if_neg (not_or.mpr leads), if_neg fun both => host both.1]
  | bare absent whole relative inner =>
    have reads : port? (hostAndPort url.authority).2 = .ok none := by rw [absent]; rfl
    have host : hostWith url.authority none = [] := by rw [absent]; rfl
    have leads : ¬ (url.path = [] ∨ url.path = [slash]) := by
      rintro (empty | root)
      · simp [empty, hasInnerSlash, dropEndSlashes, Text.dropEndWhile] at inner
      · exact relative (by rw [root]; rfl)
    simp only [reads, host]
    rw [if_neg fun both => whole both.2, if_neg leads, if_neg]
    · rfl
    · rintro ⟨-, rooted | outer⟩
      · exact relative rooted
      · exact absurd outer (ne_false_of_eq_true inner)

theorem canonicalUri_eq_ok_iff :
    canonicalUri s = .ok name ↔ s ≠ [] ∧ ∃ url, split s = .ok url ∧ url.Names name := by
  constructor
  · intro h
    have nonempty : s ≠ [] := by
      rintro rfl
      cases h
    cases parts : split s with
    | error e =>
      simp [canonicalUri, parts, nonempty, bind, Except.bind] at h
    | ok url => exact ⟨nonempty, url, rfl, .of_canonicalUri nonempty parts h⟩
  · rintro ⟨nonempty, url, parts, named⟩
    exact named.canonicalUri nonempty parts

theorem head?_path_of_split (parts : split s = .ok url) (asked : url.authority ≠ [])
    (nonempty : url.path ≠ []) : url.path.head? = some slash := by
  rcases split_cases parts with ⟨-, -, empty | rooted⟩ | ⟨absent, -⟩
  · exact absurd empty nonempty
  · exact rooted
  · exact absurd absent asked

theorem slash_notMem_lower_hostWith (parts : split s = .ok url) (port : Option Nat) :
    slash ∉ Text.lower (hostWith url.authority port) := by
  intro inside
  rcases mem_lower_hostWith inside (by decide) with before | same | digit
  · exact slash_notMem_of_split parts before
  · exact absurd same (by decide)
  · exact absurd digit (by decide)

theorem foreign_of_mem_lostMarks : ∀ c ∈ lostMarks,
    c.value ≤ 64 ∧ c ≠ colon ∧ c.isAsciiDigit = false ∧ c ≠ .char '.' := by
  decide

theorem notMem_of_canonicalUri (h : canonicalUri s = .ok name) {c : CodePoint}
    (lost : c ∈ lostMarks) : c ∉ name := by
  obtain ⟨-, url, parts, named⟩ := canonicalUri_eq_ok_iff.mp h
  obtain ⟨notAsked, notOnPath⟩ := notMem_of_split parts lost
  obtain ⟨low, notColon, notDigit, notDot⟩ := foreign_of_mem_lostMarks c lost
  have notClean : c ∉ cleanPath url.path := fun inside =>
    (mem_cleanPath inside).elim notDot notOnPath
  cases named with
  | hosted port asked reads host leads =>
    intro inside
    rcases List.mem_append.mp inside with here | later
    · rcases mem_lower_hostWith here low with before | same | digit
      · exact notAsked before
      · exact notColon same
      · exact absurd digit (ne_true_of_eq_false notDigit)
    · exact notClean later
  | bare => exact notClean

end Name

end Url
end IndexCoverage
