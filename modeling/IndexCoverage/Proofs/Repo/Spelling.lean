import IndexCoverage.Proofs.Repo.Naming

/-! The ways to write one clone URL. The scheme, the user, the case of the host, zeros in front of
the port, the suffix of a bare repository or slashes at the end, a query and a fragment make no
difference to the name: the host, the port as a number and the segments of the path are all of
it. -/

namespace IndexCoverage
namespace Url

def isPlain (c : CodePoint) : Bool :=
  32 ≤ c.value && c.value ≤ 126 &&
    !([.char '/', .char '?', .char '#', .char '[', .char ']'] : Text).contains c

def isHostChar (c : CodePoint) : Bool :=
  c.isAsciiLetter || c.isAsciiDigit || c = .char '-' || c = .char '.'

inductive Ending where
  | nothing
  | bare
  | slashes (more : Nat)
  deriving DecidableEq

def Ending.text : Ending → Text
  | nothing => []
  | bare => bareSuffix
  | slashes more => List.replicate (more + 1) slash

structure PortDigits where
  digits : List Char
  all : ∀ c ∈ digits, c.isDigit = true
  nonempty : digits ≠ []
  short : digits.length ≤ 5
  small : Nat.ofDigitChars 10 digits 0 ≤ 65535

def PortDigits.number (port : PortDigits) : Nat := Nat.ofDigitChars 10 port.digits 0

structure Spelling where
  scheme : Text
  user : Option Text
  host : Text
  port : Option PortDigits
  segments : List Text
  ending : Ending
  query : Option Text
  fragment : Option Text
  schemeStarts : scheme.head?.any CodePoint.isAsciiLetter = true
  schemeChars : scheme.all isSchemeChar = true
  userChars : ∀ name ∈ user, ∀ c ∈ name, isPlain c = true
  hostNonempty : host ≠ []
  hostChars : ∀ c ∈ host, isHostChar c = true
  leads : segments ≠ []
  segmentChars : ∀ segment ∈ segments, ∀ c ∈ segment, isPlain c = true
  segmentsStay : ∀ segment ∈ segments, segment ≠ [] ∧ segment ≠ Path.dot ∧ segment ≠ Path.dotDot
  lastWhole : ∀ last ∈ segments.getLast?, ¬ bareSuffix <:+ last

instance : Inhabited Spelling where
  default :=
    { scheme := "ssh"
      user := some "git"
      host := "Example.com"
      port := some ⟨['0', '2', '2', '2', '2'], by simp, by simp, by simp, by decide⟩
      segments := ["team", "project"]
      ending := .bare
      query := none
      fragment := some "readme?"
      schemeStarts := by decide
      schemeChars := by decide
      userChars := by decide
      hostNonempty := by decide
      hostChars := by decide
      leads := by decide
      segmentChars := by decide
      segmentsStay := by decide
      lastWhole := by decide }

namespace Spelling

def portText (s : Spelling) : Option Text := s.port.map fun port => port.digits.map CodePoint.char

def authority (s : Spelling) : Text :=
  s.user.elim [] (· ++ [.char '@']) ++ (s.host ++ s.portText.elim [] (colon :: ·))

def path (s : Spelling) : Text := slash :: List.intercalate [slash] s.segments

def text (s : Spelling) : Text :=
  s.scheme ++ colon :: slash :: slash :: (s.authority ++ (s.path ++ s.ending.text)) ++
    (s.query.elim [] (CodePoint.char '?' :: ·) ++ s.fragment.elim [] (CodePoint.char '#' :: ·))

def name (s : Spelling) : Text :=
  s.host.map Numeral.lowerAscii ++ s.port.elim [] (fun port => colon :: Text.ofNat port.number) ++
    s.path

end Spelling

section Chars

variable {c : CodePoint}

theorem isPlain_of_isSchemeChar (h : isSchemeChar c = true) : isPlain c = true := by
  have ascii : c.isAscii = true := by
    simp only [isSchemeChar, CodePoint.isAsciiLetter, CodePoint.isAsciiDigit, CodePoint.digit?,
      Bool.or_eq_true, Bool.and_eq_true, decide_eq_true_eq] at h
    rcases h with (((letter | digit) | rfl) | rfl) | rfl
    · exact decide_eq_true (by omega)
    · split at digit
      · exact decide_eq_true (by omega)
      · cases digit
    all_goals rfl
  exact CodePoint.of_ascii (p := fun c => isSchemeChar c = true → isPlain c = true)
    (by decide +kernel) ascii h

theorem isSchemeChar_of_isHostChar (h : isHostChar c = true) : isSchemeChar c = true := by
  simp only [isHostChar, isSchemeChar, Bool.or_eq_true, decide_eq_true_eq] at h ⊢
  tauto

theorem isAscii_of_isPlain (h : isPlain c = true) : c.isAscii = true := by
  simp only [isPlain, Bool.and_eq_true, decide_eq_true_eq] at h
  exact decide_eq_true (by omega)

theorem foreign_of_isPlain (h : isPlain c = true) :
    c ∉ lostMarks ∧ endsAuthority c = false ∧ c ≠ .char '[' ∧ c ≠ .char ']' ∧ c ≠ slash :=
  CodePoint.of_ascii (p := fun c => isPlain c = true →
    c ∉ lostMarks ∧ endsAuthority c = false ∧ c ≠ .char '[' ∧ c ≠ .char ']' ∧ c ≠ slash)
    (by decide +kernel) (isAscii_of_isPlain h) h

end Chars

namespace Spelling

variable (s : Spelling) {c : CodePoint}

section Marks

theorem isSchemeChar_or_colon_of_mem (inside : c ∈ s.host ++ s.portText.elim [] (colon :: ·)) :
    isSchemeChar c = true ∨ c = colon := by
  rcases List.mem_append.mp inside with host | port
  · exact .inl (isSchemeChar_of_isHostChar (s.hostChars c host))
  · unfold portText at port
    cases written : s.port with
    | none => simp [written] at port
    | some digits =>
      rw [written] at port
      rcases List.mem_cons.mp port with same | later
      · exact .inr same
      · obtain ⟨digit, here, rfl⟩ := List.mem_map.mp later
        exact .inl (by
          simp [isSchemeChar, CodePoint.isAsciiDigit_of_isDigit (digits.all digit here)])

theorem isPlain_of_mem_authority (inside : c ∈ s.authority) : isPlain c = true := by
  rcases List.mem_append.mp inside with user | place
  · cases named : s.user with
    | none => simp [named] at user
    | some name =>
      rw [named] at user
      rcases List.mem_append.mp user with here | sign
      · exact s.userChars name named c here
      · rw [List.mem_singleton.mp sign]
        rfl
  · rcases s.isSchemeChar_or_colon_of_mem place with named | rfl
    · exact isPlain_of_isSchemeChar named
    · rfl

theorem isPlain_or_slash_of_mem_path (inside : c ∈ s.path ++ s.ending.text) :
    isPlain c = true ∨ c = slash := by
  rcases List.mem_append.mp inside with path | ending
  · rcases List.mem_cons.mp path with same | later
    · exact .inr same
    · rcases Text.mem_intercalate later with same | ⟨segment, here, there⟩
      · exact .inr same
      · exact .inl (s.segmentChars segment here c there)
  · cases kind : s.ending with
    | nothing => simp [kind, Ending.text] at ending
    | bare =>
      rw [kind] at ending
      exact .inl ((by decide : ∀ c ∈ bareSuffix, isPlain c = true) c ending)
    | slashes more =>
      rw [kind] at ending
      exact .inr (List.eq_of_mem_replicate ending)

end Marks

section Host

theorem hostAndPort_authority : hostAndPort s.authority = (s.host, s.portText.getD []) := by
  refine hostAndPort_append s.user s.portText (fun c inside => ?_) fun inside => ?_
  · rcases s.isSchemeChar_or_colon_of_mem inside with named | rfl
    · constructor <;> rintro rfl <;> exact absurd named (by decide)
    · decide
  · exact absurd (isSchemeChar_of_isHostChar (s.hostChars _ inside)) (by decide)

theorem port?_authority :
    port? (hostAndPort s.authority).2 = .ok (s.port.map PortDigits.number) := by
  rw [hostAndPort_authority, portText]
  cases s.port with
  | none => rfl
  | some port =>
    exact port?_digits port.all port.nonempty (Nat.le_trans port.short (by decide)) port.small

theorem lower_hostWith : Text.lower (hostWith s.authority (s.port.map PortDigits.number)) =
    s.host.map Numeral.lowerAscii ++
      s.port.elim [] (fun port => colon :: Text.ofNat port.number) := by
  have ascii (c : CodePoint) (inside : c ∈ s.host) : c.isAscii = true :=
    isAscii_of_isPlain (isPlain_of_isSchemeChar (isSchemeChar_of_isHostChar (s.hostChars c inside)))
  have zoneless : CodePoint.char '%' ∉ s.host := fun inside =>
    absurd (isSchemeChar_of_isHostChar (s.hostChars _ inside)) (by decide)
  have host : hostName s.host = s.host.map Numeral.lowerAscii := by
    rw [hostName, Text.cut_of_notMem zoneless]
    exact (List.append_nil _).trans (Text.lower_of_ascii (List.all_eq_true.mpr ascii))
  have whole : hostWith s.authority (s.port.map PortDigits.number) =
      s.host.map Numeral.lowerAscii ++
        s.port.elim [] (fun port => colon :: Text.ofNat port.number) := by
    rw [hostWith, hostAndPort_authority, host]
    cases s.port <;> rfl
  rw [whole]
  refine Text.lower_eq_self fun c inside => ?_
  rcases List.mem_append.mp inside with letter | port
  · obtain ⟨before, here, rfl⟩ := List.mem_map.mp letter
    exact (CodePoint.lower_of_ascii (ascii before here)).2
  · cases written : s.port with
    | none => simp [written] at port
    | some digits =>
      rw [written] at port
      rcases List.mem_cons.mp port with rfl | digit
      · exact ⟨rfl, rfl⟩
      · exact CodePoint.lowerAscii_of_isAsciiDigit (Text.isAsciiDigit_of_mem_ofNat digit)

end Host

section Way

theorem tidy_segments : Tidy true s.segments := by
  have noDots : ∀ segment ∈ s.segments, segment ≠ Path.dotDot := fun segment inside =>
    (s.segmentsStay segment inside).2.2
  refine ⟨fun segment inside => ?_, fun _ inside => noDots _ inside rfl, ?_⟩
  · obtain ⟨nonempty, notDot, -⟩ := s.segmentsStay segment inside
    exact ⟨nonempty, notDot, fun there =>
      (foreign_of_isPlain (s.segmentChars segment inside slash there)).2.2.2.2 rfl⟩
  · exact List.pairwise_of_forall_mem_list fun _ _ after there up => absurd up (noDots after there)

theorem not_bareSuffix_path : ¬ bareSuffix <:+ s.path := by
  obtain ⟨front, last, whole⟩ := (List.eq_nil_or_concat' s.segments).resolve_left s.leads
  have ends : slash :: last <:+ s.path := by
    rw [path, whole]
    exact Text.cons_suffix_cons_intercalate slash front last
  exact fun suffix => s.lastWhole last (by simp [whole]) (bareSuffix_of_suffix suffix ends)

theorem cleanPath_path : cleanPath (s.path ++ s.ending.text) = s.path := by
  have kept (tail : Text) (ends : ∀ c ∈ tail, c = slash) :
      dropEndSlashes (normalizePath (s.path ++ tail)) = s.path := by
    have steps : dropEndSlashes (normalizePath
        ([slash] ++ (List.intercalate [slash] s.segments ++ tail))) =
          [slash] ++ List.intercalate [slash] s.segments :=
      dropEndSlashes_normalizePath_of_tidy rfl s.tidy_segments s.leads ends
    rw [← List.append_assoc] at steps
    exact steps
  have whole := kept [] (by simp)
  rw [List.append_nil] at whole
  cases s.ending with
  | nothing =>
    rw [Ending.text, List.append_nil, cleanPath, dropBareSuffix_of_not s.not_bareSuffix_path, whole]
  | bare => rw [Ending.text, cleanPath, dropBareSuffix_append, whole]
  | slashes more =>
    have outside : ¬ bareSuffix <:+ s.path ++ List.replicate (more + 1) slash := fun suffix => by
      have ends : [slash] <:+ s.path ++ List.replicate (more + 1) slash := by
        rw [List.replicate_succ', ← List.append_assoc]
        exact List.suffix_append ..
      exact absurd (bareSuffix_of_suffix suffix ends) (by decide)
    rw [Ending.text, cleanPath, dropBareSuffix_of_not outside,
      kept _ fun c => List.eq_of_mem_replicate]

end Way

section Whole

theorem visible_of_mem_front {c : CodePoint}
    (inside : c ∈ s.scheme ++
      colon :: slash :: slash :: (s.authority ++ (s.path ++ s.ending.text))) :
    isPlain c = true ∨ c = slash := by
  rw [List.mem_append, List.mem_cons, List.mem_cons, List.mem_cons, List.mem_append] at inside
  rcases inside with scheme | rfl | rfl | rfl | authority | way
  · exact .inl (isPlain_of_isSchemeChar (List.all_eq_true.mp s.schemeChars c scheme))
  · exact .inl rfl
  · exact .inr rfl
  · exact .inr rfl
  · exact .inl (s.isPlain_of_mem_authority authority)
  · exact s.isPlain_or_slash_of_mem_path way

theorem split_text : Url.split s.text = .ok ⟨s.authority, s.path ++ s.ending.text⟩ := by
  have notLost {c : CodePoint} (visible : isPlain c = true ∨ c = slash) : c ∉ lostMarks := by
    rcases visible with plain | rfl
    · exact (foreign_of_isPlain plain).1
    · decide
  have starts : ∃ c ∈ (s.scheme ++ colon :: slash :: slash ::
      (s.authority ++ (s.path ++ s.ending.text))).head?, 32 < c.value := by
    have letter := s.schemeStarts
    cases named : s.scheme with
    | nil => simp [named] at letter
    | cons c rest =>
      rw [named] at letter
      simp only [List.head?_cons, Option.any_some, CodePoint.isAsciiLetter, Bool.or_eq_true,
        Bool.and_eq_true, decide_eq_true_eq] at letter
      exact ⟨c, rfl, by omega⟩
  have read : body s.text = slash :: slash :: (s.authority ++ ((s.path ++ s.ending.text) ++
      joinLines (s.query.elim [] (CodePoint.char '?' :: ·) ++
        s.fragment.elim [] (CodePoint.char '#' :: ·)))) := by
    rw [body, text, clean_append starts fun c lost inside =>
      notLost (s.visible_of_mem_front inside) lost, List.append_assoc, List.cons_append,
      dropScheme_append s.schemeStarts s.schemeChars, List.cons_append, List.cons_append,
      List.append_assoc]
  have authorityPlain (c : CodePoint) (inside : c ∈ s.authority) :=
    foreign_of_isPlain (s.isPlain_of_mem_authority inside)
  have sound : authorityError? s.authority = none := authorityError?_of_ascii
    (List.all_eq_true.mpr fun c inside => isAscii_of_isPlain (s.isPlain_of_mem_authority inside))
    (fun inside => (authorityPlain _ inside).2.2.1 rfl)
    (fun inside => (authorityPlain _ inside).2.2.2.1 rfl)
  refine split_of_body sound (fun c inside => (authorityPlain c inside).2.1) rfl
    (fun c lost inside => notLost (s.isPlain_or_slash_of_mem_path inside) lost) ?_ read
  cases s.query <;> cases s.fragment <;> simp [joinLines]

end Whole

end Spelling

/-- However a clone URL is written, it has a name: the host in lower case, the port without zeros in
front, and the segments of the path. -/
theorem canonicalUri_text (s : Spelling) : canonicalUri s.text = .ok s.name := by
  have names : Names ⟨s.authority, s.path ++ s.ending.text⟩
      (Text.lower (hostWith s.authority (s.port.map PortDigits.number)) ++
        cleanPath (s.path ++ s.ending.text)) := by
    refine .hosted _ ?_ s.port?_authority ?_ ⟨?_, ?_⟩
    · simp [Spelling.authority, s.hostNonempty]
    · refine Text.lower_eq_nil_iff.not.mp ?_
      rw [s.lower_hostWith]
      simp [s.hostNonempty]
    · simp [Spelling.path]
    · simp [Spelling.path, s.tidy_segments.intercalate_ne_nil s.leads]
  rw [s.lower_hostWith, s.cleanPath_path] at names
  exact names.canonicalUri (by simp [Spelling.text]) s.split_text

example : (default : Spelling).text = "ssh://git@Example.com:02222/team/project.git#readme?" ∧
    canonicalUri (default : Spelling).text = .ok "example.com:2222/team/project" := by
  decide +kernel

end Url
end IndexCoverage
