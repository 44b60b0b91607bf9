import IndexCoverage.Proofs.Repo.Naming
import Mathlib.Algebra.Ring.Int.Defs
import Mathlib.Data.List.Induction

/-! How far a path leads, and which names have a host and a path behind it. Behind a slash, segments
are left of a path if one of its ends leads on; without one, no two dots are left in front if no
part at its start leads back. What is checked of a URL is checked before its path is cleaned, so
a name may have lost its host or its path by then. -/

namespace IndexCoverage
namespace Url

/-- By how much a segment leads on: a name by one, two dots back by one, and an empty segment or a
dot not at all. -/
def stride (segment : Text) : Int :=
  if segment = [] ∨ segment = Path.dot then 0 else if segment = Path.dotDot then -1 else 1

def reach (segments : List Text) : Int := (segments.map stride).sum

@[simp] theorem reach_nil : reach [] = 0 := rfl

@[simp] theorem reach_concat (segments : List Text) (segment : Text) :
    reach (segments ++ [segment]) = reach segments + stride segment := by
  simp [reach]

section Step

variable {rooted : Bool} {done : List Text} {segment : Text}

theorem stride_cases (segment : Text) :
    (segment = [] ∨ segment = Path.dot) ∧ stride segment = 0 ∨
      segment = Path.dotDot ∧ stride segment = -1 ∨
      segment ≠ [] ∧ segment ≠ Path.dot ∧ segment ≠ Path.dotDot ∧ stride segment = 1 := by
  unfold stride
  by_cases idle : segment = [] ∨ segment = Path.dot
  · exact .inl ⟨idle, if_pos idle⟩
  · obtain ⟨nonempty, notDot⟩ := not_or.mp idle
    rw [if_neg idle]
    by_cases up : segment = Path.dotDot
    · exact .inr (.inl ⟨up, if_pos up⟩)
    · exact .inr (.inr ⟨nonempty, notDot, up, if_neg up⟩)

def nameCount (done : List Text) : Nat := done.countP (· ≠ Path.dotDot)

theorem nameCount_concat (done : List Text) (segment : Text) :
    nameCount (done ++ [segment]) = nameCount done + if segment = Path.dotDot then 0 else 1 := by
  rw [nameCount, List.countP_append, ← nameCount, List.countP_singleton]
  by_cases up : segment = Path.dotDot <;> simp [up]

theorem nameCount_eq_zero_iff : nameCount done = 0 ↔ ∀ segment ∈ done, segment = Path.dotDot := by
  simp [nameCount, List.countP_eq_zero]

theorem nameCount_eq_length_iff : nameCount done = done.length ↔ Path.dotDot ∉ done := by
  rw [nameCount, List.countP_eq_length]
  simp only [decide_eq_true_eq, ne_eq]
  exact ⟨fun all inside => all _ inside rfl,
    fun absent segment inside same => absent (same ▸ inside)⟩

theorem Tidy.nameCount_addSegment (tidy : Tidy rooted done) (segment : Text) :
    (nameCount (Url.addSegment rooted done segment) : Int) =
      max 0 (nameCount done + stride segment) := by
  rcases stride_cases segment with ⟨idle, stays⟩ | ⟨rfl, back⟩ | ⟨nonempty, notDot, notUp, on⟩
  · rw [addSegment_of_idle idle, stays]
    omega
  · rw [addSegment_up, back]
    rcases List.eq_nil_or_concat' done with rfl | ⟨front, last, rfl⟩
    · cases rooted <;> rfl
    · rw [if_neg (by simp)]
      by_cases up : last = Path.dotDot
      · have none : nameCount (front ++ [last]) = 0 :=
          nameCount_eq_zero_iff.mpr (tidy.eq_dotDot_of_getLast? (by simp [up]))
        rw [if_pos (by simp [up]), nameCount_concat, none]
        rfl
      · rw [if_neg (by simpa using up), List.dropLast_concat, nameCount_concat, if_neg up]
        omega
  · rw [addSegment_of_name nonempty notDot notUp, nameCount_concat, if_neg notUp, on]
    omega

theorem dotDot_mem_addSegment_iff :
    Path.dotDot ∈ addSegment false done segment ↔
      Path.dotDot ∈ done ∨ done = [] ∧ segment = Path.dotDot := by
  rcases stride_cases segment with ⟨idle, -⟩ | ⟨rfl, -⟩ | ⟨nonempty, notDot, notUp, -⟩
  · have other : segment ≠ Path.dotDot := by rcases idle with rfl | rfl <;> decide
    simp [addSegment_of_idle idle, other]
  · rw [addSegment_up]
    rcases List.eq_nil_or_concat' done with rfl | ⟨front, last, rfl⟩
    · simp
    · rw [if_neg (by simp)]
      by_cases up : last = Path.dotDot
      · simp [up]
      · simp [up, Ne.symm up]
  · simp [addSegment_of_name nonempty notDot notUp, notUp, Ne.symm notUp]

end Step

section Run

def walk (rooted : Bool) (segments : List Text) : List Text :=
  segments.foldl (addSegment rooted) []

@[simp] theorem walk_concat (rooted : Bool) (segments : List Text) (segment : Text) :
    walk rooted (segments ++ [segment]) = addSegment rooted (walk rooted segments) segment := by
  simp [walk]

variable {rooted : Bool} {segments : List Text}

/-- As many names are left as the farthest-leading end of a path leads on by. -/
theorem le_nameCount_walk_iff (whole : ∀ segment ∈ segments, slash ∉ segment) {n : Int} :
    n ≤ nameCount (walk rooted segments) ↔ ∃ late, late <:+ segments ∧ n ≤ reach late := by
  induction segments using List.reverseRecOn generalizing n with
  | nil => simp [walk, nameCount]
  | append_singleton segments segment ih =>
    obtain ⟨before, -⟩ := List.forall_mem_append.mp whole
    have tidy : Tidy rooted (walk rooted segments) := (tidy_nil rooted).foldl_addSegment before
    have step := tidy.nameCount_addSegment segment
    have earlier := ih before (n := n - stride segment)
    have parted : n ≤ nameCount (walk rooted (segments ++ [segment])) ↔
        n ≤ 0 ∨ n - stride segment ≤ nameCount (walk rooted segments) := by
      rw [walk_concat, step]
      omega
    rw [parted, earlier]
    constructor
    · rintro (none | ⟨late, ends, far⟩)
      · exact ⟨[], List.nil_suffix, none⟩
      · refine ⟨late ++ [segment], List.suffix_concat_iff.mpr (.inr ⟨late, rfl, ends⟩), ?_⟩
        rw [reach_concat]
        omega
    · rintro ⟨late, ends, far⟩
      rcases List.suffix_concat_iff.mp ends with rfl | ⟨before, rfl, inside⟩
      · exact .inl far
      · rw [reach_concat] at far
        exact .inr ⟨before, inside, by omega⟩

theorem walk_ne_nil_iff (whole : ∀ segment ∈ segments, slash ∉ segment) :
    walk true segments ≠ [] ↔ ∃ late, late <:+ segments ∧ 0 < reach late := by
  have tidy : Tidy true (walk true segments) := (tidy_nil true).foldl_addSegment whole
  have all := nameCount_eq_length_iff.mpr (tidy.grounded rfl)
  have some : (1 : Int) ≤ nameCount (walk true segments) ↔ _ := le_nameCount_walk_iff whole
  rw [← List.length_pos_iff, ← all]
  exact Iff.trans (by omega) some

theorem length_walk (whole : ∀ segment ∈ segments, slash ∉ segment)
    (grounded : Path.dotDot ∉ walk false segments) :
    ((walk false segments).length : Int) = reach segments := by
  induction segments using List.reverseRecOn with
  | nil => rfl
  | append_singleton segments segment ih =>
    obtain ⟨before, -⟩ := List.forall_mem_append.mp whole
    have tidy : Tidy false (walk false segments) := (tidy_nil false).foldl_addSegment before
    have step := tidy.nameCount_addSegment segment
    rw [walk_concat] at grounded ⊢
    obtain ⟨free, room⟩ := not_or.mp (mt dotDot_mem_addSegment_iff.mpr grounded)
    have onWay : 0 ≤ (walk false segments).length + stride segment := by
      rcases stride_cases segment with ⟨-, stays⟩ | ⟨up, back⟩ | ⟨-, -, -, on⟩
      · omega
      · have some := List.length_pos_iff.mpr fun none => room ⟨none, up⟩
        omega
      · omega
    rw [nameCount_eq_length_iff.mpr grounded, nameCount_eq_length_iff.mpr free] at step
    rw [step, Int.max_eq_right onWay, ih before free, reach_concat]

theorem dotDot_notMem_walk_iff (whole : ∀ segment ∈ segments, slash ∉ segment) :
    Path.dotDot ∉ walk false segments ↔ ∀ early, early <+: segments → 0 ≤ reach early := by
  induction segments using List.reverseRecOn with
  | nil => simp [walk]
  | append_singleton segments segment ih =>
    obtain ⟨before, -⟩ := List.forall_mem_append.mp whole
    constructor
    · intro grounded early start
      rcases List.prefix_concat_iff.mp start with rfl | earlier
      · rw [← length_walk whole grounded]
        exact Int.natCast_nonneg _
      · rw [walk_concat] at grounded
        obtain ⟨free, -⟩ := not_or.mp (mt dotDot_mem_addSegment_iff.mpr grounded)
        exact (ih before).mp free early earlier
    · intro grounded
      have free := (ih before).mpr fun early start =>
        grounded early (start.trans (List.prefix_append ..))
      rw [walk_concat, dotDot_mem_addSegment_iff]
      rintro (inside | ⟨none, rfl⟩)
      · exact free inside
      · have far := grounded _ (List.prefix_refl _)
        have short := length_walk before free
        rw [none, List.length_nil] at short
        rw [reach_concat, ← short] at far
        exact absurd far (by decide)

end Run

section Host

def IsName (segment : Text) : Prop :=
  segment ≠ [] ∧ segment ≠ Path.dot ∧ segment ≠ Path.dotDot

instance (segment : Text) : Decidable (IsName segment) :=
  inferInstanceAs (Decidable (segment ≠ [] ∧ segment ≠ Path.dot ∧ segment ≠ Path.dotDot))

theorem Tidy.forall_isName {rooted : Bool} {segments : List Text} (tidy : Tidy rooted segments)
    (grounded : Path.dotDot ∉ segments) : ∀ segment ∈ segments, IsName segment := by
  intro segment inside
  obtain ⟨nonempty, notDot, -⟩ := tidy.counts segment inside
  exact ⟨nonempty, notDot, fun up => grounded (up ▸ inside)⟩

/-- A host and a path behind it, without empty segments and dot segments. -/
def IsFull (name : Text) : Prop :=
  ∃ host segments, name = host ++ slash :: List.intercalate [slash] segments ∧ segments ≠ [] ∧
    ∀ segment ∈ host :: segments, IsName segment ∧ slash ∉ segment

theorem isFull_iff {name : Text} :
    IsFull name ↔
      1 < (Text.splitOn slash name).length ∧
        ∀ segment ∈ Text.splitOn slash name, IsName segment := by
  constructor
  · rintro ⟨host, segments, rfl, some, all⟩
    have joined : host ++ slash :: List.intercalate [slash] segments =
        List.intercalate [slash] (host :: segments) := by
      rw [List.intercalate_cons_of_ne_nil some, List.append_assoc, List.singleton_append]
    rw [joined, Text.splitOn_intercalate fun segment inside => (all segment inside).2]
    exact ⟨by simpa using List.length_pos_iff.mpr some,
      fun segment inside => (all segment inside).1⟩
  · rintro ⟨long, all⟩
    obtain ⟨host, segments, parts⟩ := List.exists_cons_of_ne_nil (Text.splitOn_ne_nil slash name)
    rw [parts] at long all
    have some : segments ≠ [] := by
      rintro rfl
      simp at long
    refine ⟨host, segments, ?_, some, fun segment inside =>
      ⟨all segment inside, Text.not_mem_of_mem_splitOn (parts ▸ inside)⟩⟩
    rw [← Text.intercalate_splitOn slash name, parts, List.intercalate_cons_of_ne_nil some,
      List.append_assoc, List.singleton_append]

theorem splitOn_host_append {host : Text} (absent : slash ∉ host) (path : Text) :
    Text.splitOn slash (host ++ slash :: path) = host :: Text.splitOn slash path := by
  rw [Text.splitOn_append_cons, Text.splitOn_of_notMem absent, List.singleton_append]

theorem isFull_append_cleanPath_iff {host path : Text} (absent : slash ∉ host)
    (nonempty : host ≠ []) (rooted : path.head? = some slash) :
    IsFull (host ++ cleanPath path) ↔
      (host ≠ Path.dot ∧ host ≠ Path.dotDot) ∧
        leadingSlashes (dropBareSuffix path) ≠ [slash, slash] ∧
        segmentsOf (dropBareSuffix path) ≠ [] := by
  have led := mt leadingSlashes_dropBareSuffix_eq_nil_iff.mp (not_not_intro rooted)
  have tidy := tidy_of_rooted rooted
  rw [isFull_iff, cleanPath, dropEndSlashes_normalizePath, if_neg led]
  by_cases none : segmentsOf (dropBareSuffix path) = []
  · rw [if_pos none, List.append_nil, Text.splitOn_of_notMem absent]
    simp [none]
  · rw [if_neg none]
    rcases (leadingSlashes_cases (dropBareSuffix path)).resolve_left led with one | two
    · have kept := tidy.forall_isName (tidy.grounded rfl)
      have some := List.length_pos_iff.mpr none
      rw [one, List.singleton_append, splitOn_host_append absent, tidy.splitOn_intercalate none,
        List.forall_mem_cons, and_iff_left kept, List.length_cons]
      simp [IsName, nonempty, none, some]
    · rw [two, List.cons_append, List.singleton_append, splitOn_host_append absent]
      simp [Text.splitOn, IsName]

theorem isFull_cleanPath_iff {path : Text} (bare : path.head? ≠ some slash) :
    IsFull (cleanPath path) ↔
      Path.dotDot ∉ segmentsOf (dropBareSuffix path) ∧
        2 ≤ (segmentsOf (dropBareSuffix path)).length := by
  have clear := leadingSlashes_dropBareSuffix_eq_nil_iff.mpr bare
  have tidy := tidy_segmentsOf (dropBareSuffix path)
  rw [isFull_iff, cleanPath, dropEndSlashes_normalizePath, clear, if_pos rfl, List.nil_append]
  by_cases none : segmentsOf (dropBareSuffix path) = []
  · rw [if_pos none, none]
    decide
  · rw [if_neg none, tidy.splitOn_intercalate none, and_comm]
    exact and_congr_left fun _ => ⟨fun all inside => (all _ inside).2.2 rfl, tidy.forall_isName⟩

def stepsOf (path : Text) : List Text := Text.splitOn slash (dropBareSuffix path)

theorem whole_stepsOf (path : Text) : ∀ segment ∈ stepsOf path, slash ∉ segment :=
  fun _ inside => Text.not_mem_of_mem_splitOn inside

theorem segmentsOf_of_rooted {path : Text} (rooted : path.head? = some slash) :
    segmentsOf (dropBareSuffix path) = walk true (stepsOf path) := by
  have led := mt leadingSlashes_dropBareSuffix_eq_nil_iff.mp (not_not_intro rooted)
  rw [segmentsOf, show (!(leadingSlashes (dropBareSuffix path)).isEmpty) = true by simpa using led]
  rfl

theorem segmentsOf_of_bare {path : Text} (bare : path.head? ≠ some slash) :
    segmentsOf (dropBareSuffix path) = walk false (stepsOf path) := by
  rw [segmentsOf, leadingSlashes_dropBareSuffix_eq_nil_iff.mpr bare]
  rfl

/-- The host is not a dot or two, unless a port follows it, and something is left of the path behind
it. A path that holds the host itself goes on by one more name, and never back behind it. -/
inductive LeadsOn (url : Url) : Prop
  | hosted (asked : url.authority ≠ [])
      (named : hostAndPort url.authority ≠ (Path.dot, []) ∧
        hostAndPort url.authority ≠ (Path.dotDot, []))
      (single : leadingSlashes (dropBareSuffix url.path) ≠ [slash, slash]) (late : List Text)
      (ends : late <:+ stepsOf url.path) (on : 0 < reach late)
  | bare (absent : url.authority = [])
      (grounded : ∀ early, early <+: stepsOf url.path → 0 ≤ reach early)
      (on : 2 ≤ reach (stepsOf url.path))

/-- The name of a URL has a host and a path behind it if the URL leads on, and only then. -/
theorem isFull_iff_leadsOn {s name : Text} (named : canonicalUri s = .ok name) :
    ∃ url, split s = .ok url ∧ (IsFull name ↔ url.LeadsOn) := by
  obtain ⟨-, url, parts, names⟩ := canonicalUri_eq_ok_iff.mp named
  refine ⟨url, parts, ?_⟩
  cases names with
  | hosted port asked reads host leads =>
    have rooted := head?_path_of_split parts asked leads.1
    have oneDot : Text.lower (hostWith url.authority port) = Path.dot ↔
        hostAndPort url.authority = (Path.dot, []) :=
      lower_hostWith_eq_iff (by decide) rfl (by decide) (by decide) reads
    have twoDots : Text.lower (hostWith url.authority port) = Path.dotDot ↔
        hostAndPort url.authority = (Path.dotDot, []) :=
      lower_hostWith_eq_iff (by decide) rfl (by decide) (by decide) reads
    rw [isFull_append_cleanPath_iff (slash_notMem_lower_hostWith parts port)
      (Text.lower_eq_nil_iff.not.mpr host) rooted, segmentsOf_of_rooted rooted,
      walk_ne_nil_iff (whole_stepsOf _), oneDot.ne, twoDots.ne]
    constructor
    · rintro ⟨notDots, single, late, ends, on⟩
      exact .hosted asked notDots single late ends on
    · rintro (⟨-, notDots, single, late, ends, on⟩ | ⟨absent, -, -⟩)
      · exact ⟨notDots, single, late, ends, on⟩
      · exact absurd absent asked
  | bare absent whole relative inner =>
    rw [isFull_cleanPath_iff relative, segmentsOf_of_bare relative]
    constructor
    · rintro ⟨grounded, long⟩
      refine .bare absent ((dotDot_notMem_walk_iff (whole_stepsOf _)).mp grounded) ?_
      rw [← length_walk (whole_stepsOf _) grounded]
      exact_mod_cast long
    · rintro (⟨asked, -, -, -, -, -⟩ | ⟨-, start, on⟩)
      · exact absurd absent asked
      · have grounded := (dotDot_notMem_walk_iff (whole_stepsOf _)).mpr start
        rw [← length_walk (whole_stepsOf _) grounded] at on
        exact ⟨grounded, by exact_mod_cast on⟩

theorem isFull_iff_leadsOn_of_steps_back :
    canonicalUri "https://GitHub.com/old/../user/repo.git" = .ok "github.com/user/repo" ∧
      IsFull "github.com/user/repo" ∧
      ∃ url, split "https://GitHub.com/old/../user/repo.git" = .ok url ∧
        (IsFull "github.com/user/repo" ↔ url.LeadsOn) := by
  have named : canonicalUri "https://GitHub.com/old/../user/repo.git" =
      .ok "github.com/user/repo" := by decide +kernel
  exact ⟨named, isFull_iff.mpr (by decide), isFull_iff_leadsOn named⟩

/-- A path that is nothing but the suffix is there when it is looked for, and lost with it. -/
theorem not_isFull_of_suffix_alone : canonicalUri "https://h/.git" = .ok "h" ∧ ¬IsFull "h" :=
  ⟨by decide +kernel, fun full => absurd (isFull_iff.mp full) (by decide)⟩

end Host

end Url
end IndexCoverage
