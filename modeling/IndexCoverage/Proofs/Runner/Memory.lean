import IndexCoverage.Proofs.Runner.History

/-! How current the repository in an answer is. Its settings have no say in that: only the
settings of the first request that succeeded have, and the result of this very request is not
kept. -/

namespace IndexCoverage
namespace Turn

theorem answer_of_firstSuccess? {turns later : List Turn} {context : Context}
    (first : firstSuccess? turns = some (context, later)) :
    ∃ turn ∈ turns, turn.answer = .ok context := by
  induction turns with
  | nil => simp [firstSuccess?] at first
  | cons turn rest ih =>
    rw [firstSuccess?] at first
    cases answered : turn.answer with
    | ok found =>
      rw [answered] at first
      simp only [Option.some.injEq, Prod.mk.injEq] at first
      exact ⟨turn, List.mem_cons_self .., first.1 ▸ answered⟩
    | error e =>
      rw [answered] at first
      obtain ⟨other, inside, same⟩ := ih first
      exact ⟨other, List.mem_cons_of_mem _ inside, same⟩

theorem remembered_of_success {home : Path} {turn : Turn} {context : Context}
    (answered : turn.answer = .ok context) (caches : context.settings.cacheRepo = true)
    (later : List Turn) : remembered home (turn :: later) = later.findSome? (kept? home) := by
  rw [remembered, firstSuccess?, answered]
  exact if_pos caches

theorem kept?_of_reported {home : Path} {turn : Turn} {repo : Repo} (here : turn.home? = some home)
    (reported : turn.reported home = .ok repo) : turn.kept? home = some (.ok repo) := by
  rw [kept?, if_pos here, reported, Opener.kept?]

theorem Follows.repo {before : List Turn} {turn : Turn} {context : Context} {home : Path}
    (follows : turn.Follows before) (answered : turn.answer = .ok context)
    (plain : turn.request.commit = []) (here : turn.home? = some home) :
    remembered home before = some (.ok context.repo) ∨
      remembered home before = none ∧ turn.reported home = .ok context.repo := by
  obtain ⟨home', here', told⟩ := follows context answered plain
  obtain rfl : home' = home := Option.some.inj (here'.symm.trans here)
  exact told

section Pair

variable {before middle : List Turn} {one other : Turn} {first second : Context} {home : Path}

theorem Follows.repo_eq (follows : one.Follows before)
    (follows' : other.Follows (before ++ one :: middle)) (answered : one.answer = .ok first)
    (again : other.answer = .ok second) (plain : one.request.commit = [])
    (plain' : other.request.commit = []) (here : one.home? = some home)
    (there : other.home? = some home) {context : Context} {later : List Turn}
    (success : firstSuccess? before = some (context, later))
    (caches : context.settings.cacheRepo = true) : second.repo = first.repo := by
  have known : remembered home (before ++ one :: middle) = some (.ok first.repo) := by
    rw [remembered_append success, if_pos caches, List.findSome?_cons]
    rcases follows.repo answered plain here with known | ⟨unknown, reported⟩
    · rw [known, Option.some_or]
    · rw [unknown, Option.none_or, kept?_of_reported here reported]
  rcases follows'.repo again plain' there with told | ⟨unknown, -⟩
  · simpa [known, eq_comm] using told
  · simp [known] at unknown

theorem Follows.findSome?_kept? (follows' : other.Follows (before ++ one :: middle))
    (success : firstSuccess? before = none) (answered : one.answer = .ok first)
    (caches : first.settings.cacheRepo = true) (again : other.answer = .ok second)
    (plain' : other.request.commit = []) (there : other.home? = some home) :
    (middle ++ [other]).findSome? (kept? home) = some (.ok second.repo) := by
  have known : remembered home (before ++ one :: middle) = middle.findSome? (kept? home) := by
    rw [← remembered_of_success answered caches middle]
    unfold remembered
    rw [firstSuccess?_append, success]
  rw [List.findSome?_append, List.findSome?_singleton, ← known]
  rcases follows'.repo again plain' there with told | ⟨unknown, reported⟩
  · rw [told, Option.some_or]
  · rw [unknown, Option.none_or, kept?_of_reported there reported]

end Pair

end Turn

namespace History

/-- The repository in an answer is the one that git reports exactly if nothing else is
remembered for its directory. -/
theorem repo_current_iff (session : Session) (visits : List Visit) {before after : List Turn}
    {turn : Turn} {context : Context}
    (turns : (serveAll { session } visits).turns = before ++ turn :: after)
    (answered : turn.answer = .ok context) (plain : turn.request.commit = []) :
    ∃ home, turn.home? = some home ∧
      (turn.reported home = .ok context.repo ↔
        ∀ repo, Turn.remembered home before = some (.ok repo) → turn.reported home = .ok repo) := by
  have follows := (coherent_serveAll (coherent_start session) visits).follows turns
  obtain ⟨home, here, told⟩ := follows context answered plain
  refine ⟨home, here, ?_⟩
  rcases told with known | ⟨unknown, reported⟩
  · constructor
    · intro current repo same
      obtain rfl : context.repo = repo := by simpa [known] using same
      exact current
    · exact fun current => current _ known
  · exact iff_of_true reported fun repo same => by simp [unknown] at same

/-- Where the settings of the first request that succeeded ask for no memory, every answer has the
repository that git reports. -/
theorem repo_current_of_switched_off (session : Session) (visits : List Visit)
    {before after : List Turn} {turn : Turn} {context : Context}
    (turns : (serveAll { session } visits).turns = before ++ turn :: after)
    (answered : turn.answer = .ok context) (plain : turn.request.commit = [])
    (off : ∀ first later, Turn.firstSuccess? before = some (first, later) →
      first.settings.cacheRepo = false) :
    ∃ home, turn.home? = some home ∧ turn.reported home = .ok context.repo := by
  have follows := (coherent_serveAll (coherent_start session) visits).follows turns
  obtain ⟨home, here, told⟩ := follows context answered plain
  have unknown : Turn.remembered home before = none := by
    unfold Turn.remembered
    cases success : Turn.firstSuccess? before with
    | none => rfl
    | some found =>
      obtain ⟨first, later⟩ := found
      exact if_neg (by simp [off first later success])
  rcases told with known | ⟨-, reported⟩
  · simp [unknown] at known
  · exact ⟨home, here, reported⟩

/-- With a memory two requests about one directory have the same repository, but for the first
request of all that succeeds: it has the same if and only if git reports so when the directory
is opened next. -/
theorem repo_fixed_iff (session : Session) (visits : List Visit)
    {before middle after : List Turn} {one other : Turn} {first second : Context} {home : Path}
    (turns : (serveAll { session } visits).turns = before ++ one :: middle ++ other :: after)
    (caching : ∀ turn ∈ (serveAll { session } visits).turns, ∀ context,
      turn.answer = .ok context → context.settings.cacheRepo = true)
    (answered : one.answer = .ok first) (again : other.answer = .ok second)
    (plain : one.request.commit = []) (plain' : other.request.commit = [])
    (here : one.home? = some home) (there : other.home? = some home) :
    second.repo = first.repo ↔
      (∃ turn ∈ before, turn.succeeds = true) ∨
        (middle ++ [other]).findSome? (Turn.kept? home) = some (.ok first.repo) := by
  have coherent := coherent_serveAll (coherent_start session) visits
  have follows : one.Follows before := coherent.follows (turns.trans (List.append_assoc ..))
  have follows' : other.Follows (before ++ one :: middle) := coherent.follows turns
  have successes := Turn.isSome_firstSuccess? before
  cases success : Turn.firstSuccess? before with
  | some found =>
    obtain ⟨context, later⟩ := found
    obtain ⟨turn, inside, made⟩ := Turn.answer_of_firstSuccess? success
    have caches : context.settings.cacheRepo = true :=
      caching turn (by rw [turns]; simp [inside]) context made
    rw [success, Option.isSome_some, eq_comm, List.any_eq_true] at successes
    exact iff_of_true
      (follows.repo_eq follows' answered again plain plain' here there success caches)
      (.inl successes)
  | none =>
    -- The first of the two makes the memory, and its own result is not in it.
    have caches : first.settings.cacheRepo = true :=
      caching one (by rw [turns]; simp) first answered
    have unsettled : ¬∃ turn ∈ before, turn.succeeds = true := by
      rw [success, Option.isSome_none, eq_comm, List.any_eq_false] at successes
      rintro ⟨turn, inside, succeeded⟩
      exact successes turn inside succeeded
    rw [or_iff_right unsettled,
      follows'.findSome?_kept? success answered caches again plain' there, Option.some.injEq,
      Except.ok.injEq]

section Switched

def switchOff : Bytes := [99, 97, 99, 104, 101, 95, 114, 101, 112, 111, 58, 32, 110, 111, 10]

def switchedDisk : Disk where
  top := .dir [("a", .dir [(settingsFileName, .file [])]),
    ("b", .dir [(settingsFileName, .file switchOff)])]
  workDir := []
  home := "/"

def gitAt (commit : Text) : Git := fun _ call =>
  match call.query with
  | .topLevel => .printed call.place.text
  | .head => .printed commit
  | .origin => .exit 1

def visitTo (name commit : Text) : Visit where
  disk := switchedDisk
  git := gitAt commit
  request := { path := Path.slash :: name }

def anySession : Session := { disk := switchedDisk, git := gitAt [], words := Fault.inWords }

def begun : History := { session := anySession }

def repoAt (name commit : Text) : Repo := { rootDir := Path.slash :: name, commit }

def settingsAt (name : Text) (cacheRepo : Bool) : Settings :=
  { root := Path.ofPlace [name], cacheRepo }

structure Served (name : Text) (caches : Bool) : Prop where
  lies : ∃ entries, switchedDisk.LiesAt [name] (.dir entries)
  enter : (switchedDisk.rights [name]).enter = true
  spelled : Path.ofText (Path.slash :: name) = Path.ofPlace [name]
  text : (Path.ofPlace [name]).text = Path.slash :: name
  bare : Text.trim (Path.slash :: name) = Path.slash :: name
  entry : Runner.entry switchedDisk (Limits.settings {}) (Path.slash :: name) =
    .ok (Path.ofPlace [name], settingsAt name caches)

theorem served_a : Served "a" true where
  lies := ⟨_, rfl, rfl, by decide, rfl, rfl⟩
  enter := rfl
  spelled := rfl
  text := rfl
  bare := rfl
  entry := by
    have file : switchedDisk.LiesAt ["a", settingsFileName] (.file []) :=
      ⟨rfl, rfl, by decide, rfl, rfl⟩
    have dir : switchedDisk.LiesAt ["a"] (.dir _) := ⟨rfl, rfl, by decide, rfl, rfl⟩
    refine Runner.entry_of_liesAt dir rfl rfl ?_
    rw [Settings.load_of_liesAt _ dir file rfl rfl]
    rfl

theorem served_b : Served "b" false where
  lies := ⟨_, rfl, rfl, by decide, rfl, rfl⟩
  enter := rfl
  spelled := rfl
  text := rfl
  bare := rfl
  entry := by
    have file : switchedDisk.LiesAt ["b", settingsFileName] (.file switchOff) :=
      ⟨rfl, rfl, by decide, rfl, rfl⟩
    have dir : switchedDisk.LiesAt ["b"] (.dir _) := ⟨rfl, rfl, by decide, rfl, rfl⟩
    have decoded : Text.ofUtf8? false switchOff = some "cache_repo: no\n" := by decide +kernel
    refine Runner.entry_of_liesAt dir rfl rfl ?_
    rw [Settings.load_of_liesAt _ dir file rfl decoded]
    decide +kernel

/-- The runner remembers what the requests so far say it does, in a session with the usual
limits. -/
structure Usual (history : History) : Prop where
  coherent : history.Coherent
  limits : history.session.limits = {}

theorem Usual.serve {history : History} (usual : history.Usual) (visit : Visit) :
    (history.serve visit).Usual :=
  ⟨usual.coherent.serve visit, (history.limits_serve visit).trans usual.limits⟩

theorem usual_begun : begun.Usual := ⟨coherent_start _, rfl⟩

variable {history : History} {name commit : Text} {caches : Bool}

theorem Served.reported (served : Served name caches) (bare : commit.trim = commit) :
    (history.meet (visitTo name commit)).reported (Path.ofPlace [name]) =
      .ok (repoAt name commit) := by
  obtain ⟨entries, lies⟩ := served.lies
  have printed : (history.meet (visitTo name commit)).reported (Path.ofPlace [name]) =
      .ok { rootDir := (Path.ofPlace [name]).text.trim, commit := commit.trim } :=
    Session.reported_of_replies lies served.enter (served.text ▸ served.spelled) (fun _ => rfl)
      (fun _ => rfl) fun _ => rfl
  rw [printed, served.text, served.bare, bare]
  rfl

theorem Served.home? (served : Served name caches) (usual : history.Usual) :
    (history.turn (visitTo name commit)).home? = some (Path.ofPlace [name]) := by
  change (Runner.entry switchedDisk history.session.limits.settings
    (Path.slash :: name)).toOption.map (·.1) = _
  rw [usual.limits, served.entry]
  rfl

theorem Served.answer (served : Served name caches) (usual : history.Usual) {found : Text}
    (told : Turn.remembered (Path.ofPlace [name]) history.turns = some (.ok (repoAt name found)) ∨
      Turn.remembered (Path.ofPlace [name]) history.turns = none ∧
        (history.meet (visitTo name commit)).reported (Path.ofPlace [name]) =
          .ok (repoAt name found)) :
    history.answer (visitTo name commit) =
      .ok { repo := repoAt name found, settings := settingsAt name caches } := by
  obtain ⟨entries, lies⟩ := served.lies
  have entered := served.entry
  rw [← usual.limits] at entered
  exact usual.coherent.answer_of_entry entered told
    (Runner.settingsOf_of_liesAt lies served.spelled rfl)

/-- The first answer tells what git reports, and what git reports then is not kept. -/
theorem answer_first (commit : Text) (bare : commit.trim = commit) :
    begun.answer (visitTo "a" commit) =
      .ok { repo := repoAt "a" commit, settings := settingsAt "a" true } :=
  served_a.answer usual_begun (.inr ⟨rfl, served_a.reported bare⟩)

theorem answer_second (served : Served name caches) {first : Text} (bare : first.trim = first)
    (bare' : commit.trim = commit) :
    (begun.serve (visitTo "a" first)).answer (visitTo name commit) =
      .ok { repo := repoAt name commit, settings := settingsAt name caches } := by
  refine served.answer (usual_begun.serve _) (.inr ⟨?_, served.reported bare'⟩)
  rw [turns_serve]
  exact Turn.remembered_of_success (answer_first first bare) rfl []

theorem answer_third (served : Served name caches) {first second : Text}
    (bare : first.trim = first) (bare' : second.trim = second) :
    ((begun.serve (visitTo "a" first)).serve (visitTo name second)).answer (visitTo name commit) =
      .ok { repo := repoAt name second, settings := settingsAt name caches } := by
  refine served.answer ((usual_begun.serve _).serve _) (.inl ?_)
  rw [turns_serve, turns_serve, List.append_assoc]
  refine (Turn.remembered_of_success (answer_first first bare) rfl [_]).trans ?_
  rw [List.findSome?_singleton]
  exact Turn.kept?_of_reported (served.home? (usual_begun.serve _)) (served.reported bare')

theorem turns_three (one two three : Visit) :
    (serveAll { session := anySession } [one, two, three]).turns =
      [begun.turn one] ++ (begun.serve one).turn two :: [] ++
        [((begun.serve one).serve two).turn three] :=
  turns_serveAll begun [one, two, three]

def switchedVisits : List Visit := [visitTo "a" "a1", visitTo "b" "b1", visitTo "b" "b2"]

theorem repo_current_iff_switched :
    ∃ (before : List Turn) (turn : Turn) (context : Context),
      (serveAll { session := anySession } switchedVisits).turns = before ++ turn :: [] ∧
      turn.answer = .ok context ∧ turn.request.commit = [] ∧
      ∃ home, turn.home? = some home ∧
        (turn.reported home = .ok context.repo ↔
          ∀ repo, Turn.remembered home before = some (.ok repo) → turn.reported home = .ok repo) :=
  have turns := turns_three (visitTo "a" "a1") (visitTo "b" "b1") (visitTo "b" "b2")
  have answered := answer_third served_b rfl rfl
  ⟨_, _, _, turns, answered, rfl, repo_current_iff anySession switchedVisits turns answered rfl⟩

/-- The memory that the settings of the first repository ask for answers for the second too, though
its own settings have none: the commit is not the one that git is at. -/
theorem repo_stale_though_switched_off :
    ∃ (before : List Turn) (turn : Turn) (context : Context) (home : Path),
      (serveAll { session := anySession } switchedVisits).turns = before ++ turn :: [] ∧
      turn.answer = .ok context ∧ context.settings.cacheRepo = false ∧
      turn.request.commit = [] ∧ turn.home? = some home ∧
        turn.reported home ≠ .ok context.repo := by
  have moved : repoAt "b" "b2" ≠ repoAt "b" "b1" := by decide
  refine ⟨_, _, _, _, turns_three (visitTo "a" "a1") (visitTo "b" "b1") (visitTo "b" "b2"),
    answer_third served_b rfl rfl, rfl, rfl,
    served_b.home? ((usual_begun.serve _).serve _), ?_⟩
  intro current
  exact moved (Except.ok.inj ((served_b.reported rfl).symm.trans current))

def movingVisits : List Visit := [visitTo "a" "c1", visitTo "a" "c2", visitTo "a" "c3"]

theorem caching_moving : ∀ turn ∈ (serveAll { session := anySession } movingVisits).turns,
    ∀ context, turn.answer = .ok context → context.settings.cacheRepo = true := by
  intro turn inside context answered
  rw [movingVisits, turns_three] at inside
  simp only [List.cons_append, List.nil_append, List.mem_cons, List.not_mem_nil, or_false] at inside
  rcases inside with rfl | rfl | rfl
  · exact eq_of_eq_ok (answer_first "c1" rfl) answered ▸ rfl
  · exact eq_of_eq_ok (answer_second served_a rfl rfl) answered ▸ rfl
  · exact eq_of_eq_ok (answer_third served_a rfl rfl) answered ▸ rfl

theorem repo_fixed_iff_moving :
    ∃ (before : List Turn) (one other : Turn) (second third : Context) (home : Path),
      (serveAll { session := anySession } movingVisits).turns =
        before ++ one :: [] ++ other :: [] ∧
      one.answer = .ok second ∧ other.answer = .ok third ∧
      (third.repo = second.repo ↔
        (∃ turn ∈ before, turn.succeeds = true) ∨
          ([] ++ [other]).findSome? (Turn.kept? home) = some (.ok second.repo)) :=
  have turns := turns_three (visitTo "a" "c1") (visitTo "a" "c2") (visitTo "a" "c3")
  have answered := answer_second served_a rfl rfl
  have again := answer_third served_a rfl rfl
  ⟨_, _, _, _, _, _, turns, answered, again,
    repo_fixed_iff anySession movingVisits turns caching_moving answered again rfl rfl
      (served_a.home? (usual_begun.serve _)) (served_a.home? ((usual_begun.serve _).serve _))⟩

/-- The first two answers have different repositories, though the settings ask for a memory. -/
theorem repo_moves_after_first_answer :
    ∃ (one other : Turn) (after : List Turn) (first second : Context) (home : Path),
      (serveAll { session := anySession } movingVisits).turns = one :: other :: after ∧
      (∀ turn ∈ (serveAll { session := anySession } movingVisits).turns, ∀ context,
        turn.answer = .ok context → context.settings.cacheRepo = true) ∧
      one.answer = .ok first ∧ other.answer = .ok second ∧
      one.request.commit = [] ∧ other.request.commit = [] ∧
      one.home? = some home ∧ other.home? = some home ∧ second.repo ≠ first.repo := by
  have moved : repoAt "a" "c2" ≠ repoAt "a" "c1" := by decide
  have turns := turns_three (visitTo "a" "c1") (visitTo "a" "c2") (visitTo "a" "c3")
  exact ⟨_, _, _, _, _, _, turns, caching_moving, answer_first "c1" rfl,
    answer_second served_a rfl rfl, rfl, rfl, served_a.home? usual_begun,
    served_a.home? (usual_begun.serve _), moved⟩

end Switched

end History
end IndexCoverage
