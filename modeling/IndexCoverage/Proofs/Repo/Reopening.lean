import IndexCoverage.Proofs.Repo.Opening

/-! An opener with a memory over time. Paths are opened one after another, and before each of them
the files and git may have changed in any way, so that the same path may lead elsewhere. What the
opener remembers can be read off the results that it has given: for each place the first one that
is a repository or an error about it. -/

namespace IndexCoverage

structure Opening where
  disk : Disk
  git : Git
  path : Text

def Opening.meet (opening : Opening) (s : Session) : Session :=
  { s with disk := opening.disk, git := opening.git }

structure Opened where
  opener : Opener
  met : Session
  path : Text
  result : Except Failure Repo
  next : Opener
  left : Session

namespace Opened

def place? (opened : Opened) : Option Path := (opened.met.disk.locate opened.path).toOption

def outcome? (opened : Opened) (place : Path) : Option (Except RepoError Repo) :=
  if opened.place? = some place then Opener.kept? opened.result else none

/-- The result comes from those before if one of them was for the same place, without git being
asked; else it is the one of opening the place anew. What is remembered for other places stays. -/
structure Follows (opened : Opened) (before : List Opened) : Prop where
  again : ∀ place, opened.place? = some place → ∀ earlier ∈ before, ∀ outcome,
    earlier.outcome? place = some outcome →
      opened.result = outcome.mapError .repo ∧ opened.left = opened.met
  anew : ∀ place, opened.place? = some place → (∀ earlier ∈ before, earlier.outcome? place = none) →
    (opened.result, opened.left) = (Repo.containing place.text).run.run opened.met
  others : ∀ place, opened.place? ≠ some place →
    opened.next.results.lookup place = opened.opener.results.lookup place

end Opened

namespace Opener

def openOnce (opener : Opener) (s : Session) (opening : Opening) : Opened :=
  let ((result, next), left) := (opener.openPath opening.path).run (opening.meet s)
  { opener, met := opening.meet s, path := opening.path, result, next, left }

/-- Opens paths one after another; what the opener remembers goes from each to the next. -/
def openAll (opener : Opener) (s : Session) : List Opening → List Opened
  | [] => []
  | opening :: rest =>
    let opened := opener.openOnce s opening
    opened :: openAll opened.next opened.left rest

theorem kept?_mapError (outcome : Except RepoError Repo) :
    kept? (outcome.mapError .repo) = some outcome := by
  cases outcome <;> rfl

theorem known?_of_caches {opener : Opener} (caches : opener.cache = true) (place : Path) :
    opener.known? place = opener.results.lookup place := if_pos caches

section Step

variable {opener : Opener} {s : Session} {opening : Opening} {place : Path}

theorem openOnce_of_locate (leads : opening.disk.locate opening.path = .ok place) :
    opener.openOnce s opening =
      { opener, met := opening.meet s, path := opening.path
        result := opener.answer (opening.meet s) place
        next := opener.keep place ((opening.meet s).reported place)
        left := opener.after (opening.meet s) place } := by
  have met : (opening.meet s).disk.locate opening.path = .ok place := leads
  unfold openOnce
  rw [run_openPath, met]

theorem openOnce_of_nowhere {e : PathError}
    (nowhere : opening.disk.locate opening.path = .error e) :
    opener.openOnce s opening =
      { opener, met := opening.meet s, path := opening.path, result := .error (.path e)
        next := opener, left := opening.meet s } := by
  have met : (opening.meet s).disk.locate opening.path = .error e := nowhere
  unfold openOnce
  rw [run_openPath, met]

theorem place?_openOnce :
    (opener.openOnce s opening).place? = (opening.disk.locate opening.path).toOption := rfl

theorem locate_of_place? (here : (opener.openOnce s opening).place? = some place) :
    opening.disk.locate opening.path = .ok place := toOption_eq_some_iff.mp here

theorem cache_openOnce : (opener.openOnce s opening).next.cache = opener.cache := by
  cases leads : opening.disk.locate opening.path with
  | ok place => rw [openOnce_of_locate leads]; exact cache_keep ..
  | error e => rw [openOnce_of_nowhere leads]

theorem known?_next_here (caches : opener.cache = true)
    (here : (opener.openOnce s opening).place? = some place) :
    (opener.openOnce s opening).next.known? place = kept? (opener.openOnce s opening).result := by
  rw [openOnce_of_locate (locate_of_place? here)]
  dsimp only
  rw [known?_keep, if_pos ⟨caches, rfl⟩, answer]
  cases opener.known? place with
  | some outcome => exact (kept?_mapError outcome).symm
  | none => exact Option.none_or

theorem known?_next_elsewhere (elsewhere : (opener.openOnce s opening).place? ≠ some place) :
    (opener.openOnce s opening).next.known? place = opener.known? place := by
  cases leads : opening.disk.locate opening.path with
  | ok home =>
    have apart : place ≠ home := fun same => elsewhere (by rw [place?_openOnce, leads, same]; rfl)
    rw [openOnce_of_locate leads]
    dsimp only
    rw [known?_keep, if_neg fun both => apart both.2, Option.or_none]
  | error e => rw [openOnce_of_nowhere leads]

theorem result_of_known {outcome : Except RepoError Repo}
    (known : opener.known? place = some outcome)
    (here : (opener.openOnce s opening).place? = some place) :
    (opener.openOnce s opening).result = outcome.mapError .repo ∧
      (opener.openOnce s opening).left = (opener.openOnce s opening).met := by
  rw [openOnce_of_locate (locate_of_place? here)]
  simp [answer, after, known]

theorem result_of_unknown (unknown : opener.known? place = none)
    (here : (opener.openOnce s opening).place? = some place) :
    ((opener.openOnce s opening).result, (opener.openOnce s opening).left) =
      (Repo.containing place.text).run.run (opener.openOnce s opening).met := by
  rw [openOnce_of_locate (locate_of_place? here)]
  simp only [answer, after, unknown]
  rfl

end Step

/-- The opener remembers exactly the outcomes of what has been opened. -/
structure Remembers (opener : Opener) (past : List Opened) : Prop where
  caches : opener.cache = true
  known : ∀ place outcome, opener.known? place = some outcome ↔
    ∃ earlier ∈ past, earlier.outcome? place = some outcome

theorem remembers_new : ({} : Opener).Remembers [] := ⟨rfl, by simp⟩

section Run

variable {opener : Opener} {past : List Opened}

theorem Remembers.unknown_iff (remembers : opener.Remembers past) {place : Path} :
    opener.known? place = none ↔ ∀ earlier ∈ past, earlier.outcome? place = none := by
  simp only [Option.eq_none_iff_forall_ne_some, ne_eq, remembers.known, not_exists, not_and]
  exact ⟨fun none earlier inside outcome => none outcome earlier inside,
    fun none outcome earlier inside => none earlier inside outcome⟩

theorem Remembers.openOnce (remembers : opener.Remembers past) (s : Session) (opening : Opening) :
    (opener.openOnce s opening).next.Remembers (past ++ [opener.openOnce s opening]) where
  caches := cache_openOnce.trans remembers.caches
  known place outcome := by
    simp only [List.mem_append, List.mem_singleton, or_and_right, exists_or, exists_eq_left,
      ← remembers.known]
    by_cases here : (opener.openOnce s opening).place? = some place
    · rw [known?_next_here remembers.caches here, Opened.outcome?, if_pos here,
        or_iff_right_of_imp]
      intro known
      rw [(result_of_known known here).1, kept?_mapError]
    · rw [known?_next_elsewhere here, Opened.outcome?, if_neg here]
      simp

theorem Remembers.follows (remembers : opener.Remembers past) (s : Session) (opening : Opening) :
    (opener.openOnce s opening).Follows past where
  again place here earlier inside outcome told :=
    result_of_known ((remembers.known place outcome).mpr ⟨earlier, inside, told⟩) here
  anew place here untold := result_of_unknown (remembers.unknown_iff.mpr untold) here
  others place elsewhere := by
    have kept := known?_next_elsewhere elsewhere
    rwa [known?_of_caches (cache_openOnce.trans remembers.caches),
      known?_of_caches remembers.caches] at kept

theorem Remembers.follows_of_openAll {s : Session} {openings : List Opening}
    {before after : List Opened} {opened : Opened} (remembers : opener.Remembers past)
    (run : opener.openAll s openings = before ++ opened :: after) :
    opened.Follows (past ++ before) := by
  induction openings generalizing opener s past before with
  | nil => simp [openAll] at run
  | cons opening rest ih =>
    rw [openAll] at run
    cases before with
    | nil =>
      obtain ⟨rfl, -⟩ := List.cons.inj run
      rw [List.append_nil]
      exact remembers.follows s opening
    | cons first before =>
      rw [List.cons_append] at run
      obtain ⟨rfl, later⟩ := List.cons.inj run
      rw [List.append_cons]
      exact ih (remembers.openOnce s opening) later

end Run

/-- In a run of any length, whatever happens to the files and to git, the first repository or
repository error for a place stays, and nothing that is opened elsewhere counts for it. -/
theorem openAll_coherent (s : Session) (openings : List Opening) {before after : List Opened}
    {opened : Opened} (run : openAll {} s openings = before ++ opened :: after) :
    opened.Follows before := remembers_new.follows_of_openAll run

section Moving

def oneDir : Disk where
  top := .dir [("a", .dir [])]
  workDir := []
  home := "/"

def oneHome : Path := Path.ofPlace ["a"]

def moment (commit : Text) (origin : Git.Reply) : Opening where
  disk := oneDir
  git := fun _ call =>
    match call.query with
    | .topLevel => .printed "/a"
    | .head => .printed commit
    | .origin => origin
  path := "/a"

theorem liesAt_oneDir : oneDir.LiesAt ["a"] (.dir []) := ⟨rfl, rfl, by decide, rfl, rfl⟩

theorem locate_oneDir : oneDir.locate "/a" = .ok oneHome := liesAt_oneDir.locate rfl

theorem place?_moment (opener : Opener) (s : Session) (commit : Text) (origin : Git.Reply) :
    (opener.openOnce s (moment commit origin)).place? = some oneHome :=
  toOption_eq_some_iff.mpr locate_oneDir

theorem result_moment {opener : Opener} {past : List Opened} {s : Session} {commit : Text}
    {origin : Git.Reply} (remembers : opener.Remembers past)
    (untold : ∀ earlier ∈ past, earlier.outcome? oneHome = none) :
    (opener.openOnce s (moment commit origin)).result =
      Repo.fromReplies oneHome ⟨.printed "/a", .printed commit, origin⟩ := by
  have opened := (remembers.follows s (moment commit origin)).anew oneHome
    (place?_moment opener s commit origin) untold
  have met : ((moment commit origin).meet s).disk.locate oneHome.text = .ok oneHome := locate_oneDir
  exact (congrArg (·.1) opened).trans
    (Repo.value_containing_of_isDir met (liesAt_oneDir.holds _) rfl)

def movingStart : Session := { disk := oneDir, git := fun _ _ => .missing, words := Fault.inWords }

def openedFirst : Opened := openOnce {} movingStart (moment "c1" .missing)
def openedSecond : Opened := openedFirst.next.openOnce openedFirst.left (moment "c2" (.exit 1))
def openedThird : Opened := openedSecond.next.openOnce openedSecond.left (moment "c3" (.exit 1))

def movingOpenings : List Opening :=
  [moment "c1" .missing, moment "c2" (.exit 1), moment "c3" (.exit 1)]

/-- A failure that is not about the repository is not kept. The commit that is told next is, though
git moves on. -/
theorem openAll_coherent_moving :
    openAll {} movingStart movingOpenings = [openedFirst, openedSecond] ++ openedThird :: [] ∧
      openedThird.Follows [openedFirst, openedSecond] ∧
      openedFirst.result = .error (.command (.missing "git")) ∧
      openedSecond.result = .ok { rootDir := "/a", commit := "c2" } ∧
      openedThird.result = openedSecond.result ∧ openedThird.left = openedThird.met := by
  have run :
      openAll {} movingStart movingOpenings =
        [openedFirst, openedSecond] ++ openedThird :: [] := rfl
  have follows := openAll_coherent movingStart movingOpenings run
  have failed : openedFirst.result = .error (.command (.missing "git")) :=
    result_moment remembers_new (by simp)
  have unkept : openedFirst.outcome? oneHome = none := by
    rw [Opened.outcome?, failed]
    exact ite_self _
  have made : openedSecond.result = .ok { rootDir := "/a", commit := "c2" } :=
    result_moment (remembers_new.openOnce ..) (List.forall_mem_singleton.mpr unkept)
  have kept : openedSecond.outcome? oneHome = some (.ok { rootDir := "/a", commit := "c2" }) := by
    rw [Opened.outcome?, made]
    exact if_pos (place?_moment ..)
  obtain ⟨again, unasked⟩ := follows.again oneHome (place?_moment ..) openedSecond (by simp) _ kept
  exact ⟨run, follows, failed, made, again.trans made.symm, unasked⟩

end Moving

end Opener
end IndexCoverage
