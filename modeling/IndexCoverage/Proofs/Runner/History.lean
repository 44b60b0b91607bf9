import IndexCoverage.Proofs.Runner.Steps

/-! A runner over time. Requests come one after another, and before each of them the files and
git may have changed in any way. What the runner remembers can be read off the requests that
it has answered: the first one that succeeds decides by its settings whether there is a memory
at all, and from the next one on the first result for a directory is kept. -/

namespace IndexCoverage

/-- A request, with the files and the git that it meets. It asks for a report, or for the
context of one only. -/
structure Visit where
  disk : Disk
  git : Git
  request : Request
  wantsReport : Bool := false

/-- A request that has been answered: the session that it met, and its context. -/
structure Turn where
  session : Session
  request : Request
  answer : Except Failure Context

structure History where
  runner : Runner := {}
  session : Session
  turns : List Turn := []

namespace Turn

def home? (turn : Turn) : Option Path :=
  (Runner.entry turn.session.disk turn.session.limits.settings turn.request.path).toOption.map (·.1)

def reported (turn : Turn) (home : Path) : Except Failure Repo := turn.session.reported home

def kept? (home : Path) (turn : Turn) : Option (Except RepoError Repo) :=
  if turn.home? = some home then Opener.kept? (turn.reported home) else none

def succeeds (turn : Turn) : Bool := turn.answer.toOption.isSome

def firstSuccess? : List Turn → Option (Context × List Turn)
  | [] => none
  | turn :: later =>
    match turn.answer with
    | .ok context => some (context, later)
    | .error _ => firstSuccess? later

/-- The result for a directory that the runner has kept in the course of requests. -/
def remembered (home : Path) (turns : List Turn) : Option (Except RepoError Repo) :=
  match firstSuccess? turns with
  | some (context, later) =>
    if context.settings.cacheRepo then later.findSome? (kept? home) else none
  | none => none

/-- The repository in the answer is the one kept from the requests before; if there is nothing
kept for its directory, it is the one that git reports. A commit in the request comes first. -/
def Follows (before : List Turn) (turn : Turn) : Prop :=
  ∀ context, turn.answer = .ok context → turn.request.commit = [] →
    ∃ home, turn.home? = some home ∧
      (remembered home before = some (.ok context.repo) ∨
        remembered home before = none ∧ turn.reported home = .ok context.repo)

theorem firstSuccess?_append (turns more : List Turn) :
    firstSuccess? (turns ++ more) =
      match firstSuccess? turns with
      | some (context, later) => some (context, later ++ more)
      | none => firstSuccess? more := by
  induction turns with
  | nil => rfl
  | cons first rest ih =>
    rw [List.cons_append, firstSuccess?, firstSuccess?]
    cases first.answer with
    | ok context => rfl
    | error e => exact ih

theorem firstSuccess?_singleton (turn : Turn) :
    firstSuccess? [turn] = turn.answer.toOption.map (·, []) := by
  rw [firstSuccess?]
  cases turn.answer <;> rfl

theorem isSome_firstSuccess? (turns : List Turn) :
    (firstSuccess? turns).isSome = turns.any succeeds := by
  induction turns with
  | nil => rfl
  | cons first rest ih =>
    rw [firstSuccess?, List.any_cons, succeeds]
    cases first.answer with
    | ok context => rfl
    | error e => exact ih

theorem remembered_append {home : Path} {turns later : List Turn} {context : Context}
    (first : firstSuccess? turns = some (context, later)) (more : List Turn) :
    remembered home (turns ++ more) =
      (remembered home turns).or
        (if context.settings.cacheRepo then more.findSome? (kept? home) else none) := by
  unfold remembered
  rw [firstSuccess?_append, first]
  cases caches : context.settings.cacheRepo <;> simp [caches, List.findSome?_append]

theorem remembered_of_none {home : Path} {turns : List Turn} (none : firstSuccess? turns = none)
    (turn : Turn) : remembered home (turns ++ [turn]) = .none := by
  unfold remembered
  rw [firstSuccess?_append, none]
  simp only [firstSuccess?_singleton]
  cases turn.answer.toOption with
  | none => rfl
  | some context => exact ite_self _

end Turn

namespace History

def meet (history : History) (visit : Visit) : Session :=
  { history.session with disk := visit.disk, git := visit.git }

def answer (history : History) (visit : Visit) : Except Failure Context :=
  ((history.runner.context visit.request).run (history.meet visit)).1.1

def report (history : History) (visit : Visit) : Except Failure Report :=
  ((history.runner.run visit.request).run (history.meet visit)).1.1

def turn (history : History) (visit : Visit) : Turn :=
  ⟨history.meet visit, visit.request, history.answer visit⟩

def serve (history : History) (visit : Visit) : History :=
  let turns := history.turns ++ [history.turn visit]
  if visit.wantsReport then
    let ((_, runner), session) := (history.runner.run visit.request).run (history.meet visit)
    { runner, session, turns }
  else
    let ((_, runner), session) := (history.runner.context visit.request).run (history.meet visit)
    { runner, session, turns }

def serveAll (history : History) (visits : List Visit) : History := visits.foldl serve history

theorem answer_eq (history : History) (visit : Visit) :
    history.answer visit = history.runner.answer (history.meet visit) visit.request := by
  obtain ⟨log, run⟩ := history.runner.run_context visit.request (history.meet visit)
  rw [answer, run]

theorem report_eq (history : History) (visit : Visit) :
    history.report visit = history.runner.reported (history.meet visit) visit.request := by
  obtain ⟨log, run⟩ := history.runner.run_run visit.request (history.meet visit)
  rw [report, run]

theorem serve_eq (history : History) (visit : Visit) :
    ∃ log, history.serve visit =
      { runner := history.runner.next (history.meet visit) visit.request.path
        session := (history.runner.visited (history.meet visit) visit.request.path).withLog log
        turns := history.turns ++ [history.turn visit] } := by
  unfold serve
  cases visit.wantsReport with
  | true =>
    obtain ⟨log, run⟩ := history.runner.run_run visit.request (history.meet visit)
    exact ⟨log, by simp only [if_true, run]⟩
  | false =>
    obtain ⟨log, run⟩ := history.runner.run_context visit.request (history.meet visit)
    exact ⟨log, by simp only [Bool.false_eq_true, if_false, run]⟩

theorem turns_serve (history : History) (visit : Visit) :
    (history.serve visit).turns = history.turns ++ [history.turn visit] := by
  obtain ⟨log, served⟩ := history.serve_eq visit
  rw [served]

theorem limits_serve (history : History) (visit : Visit) :
    (history.serve visit).session.limits = history.session.limits := by
  obtain ⟨log, served⟩ := history.serve_eq visit
  rw [served]
  exact Runner.limits_visited _ _ _

def trail (history : History) : List Visit → List Turn
  | [] => []
  | visit :: rest => history.turn visit :: (history.serve visit).trail rest

theorem turns_serveAll (history : History) (visits : List Visit) :
    (history.serveAll visits).turns = history.turns ++ history.trail visits := by
  induction visits generalizing history with
  | nil => exact (List.append_nil _).symm
  | cons visit rest ih =>
    change ((history.serve visit).serveAll rest).turns = _
    rw [ih, turns_serve, trail, List.append_assoc, List.singleton_append]

structure Coherent (history : History) : Prop where
  /-- There is an opener from the first success on, with a memory if its settings say so. -/
  opener : history.runner.opener.map (·.cache) =
    (Turn.firstSuccess? history.turns).map (·.1.settings.cacheRepo)
  known? (home : Path) : history.runner.asked.known? home = Turn.remembered home history.turns
  follows {before after : List Turn} {turn : Turn}
    (turns : history.turns = before ++ turn :: after) : turn.Follows before

theorem opener_next_of_none {history : History} (known : history.runner.opener = none)
    (visit : Visit) :
    (history.runner.next (history.meet visit) visit.request.path).opener =
      (history.answer visit).toOption.map fun context =>
        { cache := context.settings.cacheRepo } := by
  rw [answer_eq, Runner.next, known, Runner.answer]
  cases history.runner.found (history.meet visit) visit.request.path with
  | error e => rfl
  | ok found => simp [Except.map, Except.toOption, Runner.cacheRepo_contextOf]

theorem known?_next {history : History} {opener : Opener}
    (known : history.runner.opener = some opener) (visit : Visit) :
    ∃ more, (history.runner.next (history.meet visit) visit.request.path).opener = some more ∧
      more.cache = opener.cache ∧
      ∀ home, more.known? home = (opener.known? home).or
        (if opener.cache then (history.turn visit).kept? home else none) := by
  unfold Runner.next Turn.kept? Turn.home? Turn.reported turn
  rw [known]
  dsimp only
  cases Runner.entry (history.meet visit).disk (history.meet visit).limits.settings
    visit.request.path with
  | error e =>
    refine ⟨opener, rfl, rfl, fun home => ?_⟩
    simp [Except.toOption]
  | ok found =>
    refine ⟨_, rfl, Opener.cache_keep .., fun home => ?_⟩
    rw [Opener.known?_keep]
    by_cases same : home = found.1
    · subst same
      simp [Except.toOption]
    · simp [Except.toOption, same, Ne.symm same]

theorem Coherent.answer_of_entry {history : History} (coherent : history.Coherent) {visit : Visit}
    {home : Path} {near settings : Settings} {repo : Repo}
    (entered : Runner.entry visit.disk history.session.limits.settings visit.request.path =
      .ok (home, near))
    (told : Turn.remembered home history.turns = some (.ok repo) ∨
      Turn.remembered home history.turns = none ∧ (history.meet visit).reported home = .ok repo)
    (settled : Runner.settingsOf visit.disk history.session.limits.settings repo near =
      .ok settings) :
    history.answer visit = .ok (Runner.contextOf visit.request repo settings) := by
  have entered : Runner.entry (history.meet visit).disk (history.meet visit).limits.settings
      visit.request.path = .ok (home, near) := entered
  have opened : history.runner.asked.answer (history.meet visit) home = .ok repo := by
    rw [← coherent.known? home] at told
    exact Opener.answer_eq_ok_iff.mpr told
  have settled : Runner.settingsOf (history.meet visit).disk (history.meet visit).limits.settings
      repo near = .ok settings := settled
  rw [answer_eq, Runner.answer, Runner.found_of_entry entered, opened, Except.bind, settled]
  rfl

theorem Coherent.follows_turn {history : History} (coherent : history.Coherent) (visit : Visit) :
    (history.turn visit).Follows history.turns := by
  intro context answered plain
  rw [turn, answer_eq] at answered
  obtain ⟨home, near, repo, settings, found, opened, made⟩ := Runner.answer_eq_ok answered
  have same : context.repo = repo := made ▸ Runner.repo_contextOf plain repo settings
  refine ⟨home, ?_, ?_⟩
  · rw [Turn.home?, turn, found]
    rfl
  · rw [same, ← coherent.known? home]
    exact Opener.answer_eq_ok_iff.mp opened

theorem Coherent.follows_serve {history : History} (coherent : history.Coherent) (visit : Visit)
    {before after : List Turn} {turn : Turn}
    (turns : history.turns ++ [history.turn visit] = before ++ turn :: after) :
    turn.Follows before := by
  rcases List.eq_nil_or_concat after with rfl | ⟨earlier, last, rfl⟩
  · obtain ⟨rfl, same⟩ := List.append_inj' turns rfl
    obtain rfl := List.singleton_inj.mp same
    exact coherent.follows_turn visit
  · rw [List.concat_eq_append, ← List.cons_append, ← List.append_assoc] at turns
    exact coherent.follows (List.append_inj' turns rfl).1

theorem Coherent.serve {history : History} (coherent : history.Coherent) (visit : Visit) :
    (history.serve visit).Coherent := by
  obtain ⟨log, served⟩ := history.serve_eq visit
  have switched := coherent.opener
  rw [served]
  cases known : history.runner.opener with
  | none =>
    -- No request has succeeded yet. What this one finds goes with the opener that it asks.
    rw [known, Option.map_none, eq_comm, Option.map_eq_none_iff] at switched
    have next := opener_next_of_none known visit
    constructor
    · simp only [next, Turn.firstSuccess?_append, switched, Turn.firstSuccess?_singleton, turn,
        Option.map_map]
      rfl
    · intro home
      rw [Turn.remembered_of_none switched]
      simp only [Runner.asked, next]
      cases history.answer visit with
      | error e => rfl
      | ok context => exact Opener.known?_new _ _
    · exact coherent.follows_serve visit
  | some opener =>
    rw [known, Option.map_some, eq_comm, Option.map_eq_some_iff] at switched
    obtain ⟨⟨context, later⟩, first, switch⟩ := switched
    have caches : opener.cache = context.settings.cacheRepo := switch.symm
    obtain ⟨more, next, cache, knows⟩ := known?_next known visit
    have before : history.runner.asked = opener := by rw [Runner.asked, known, Option.getD_some]
    constructor
    · simp only [next, Turn.firstSuccess?_append, first, Option.map_some, cache, caches]
    · intro home
      have kept := coherent.known? home
      rw [before] at kept
      simp only [Runner.asked, next, Option.getD_some]
      rw [knows, kept, Turn.remembered_append first]
      simp only [caches, List.findSome?_singleton]
    · exact coherent.follows_serve visit

theorem coherent_serveAll {history : History} (coherent : history.Coherent)
    (visits : List Visit) : (history.serveAll visits).Coherent := by
  induction visits generalizing history with
  | nil => exact coherent
  | cons visit rest ih => exact ih (coherent.serve visit)

theorem coherent_start (session : Session) : ({ session } : History).Coherent where
  opener := rfl
  known? _ := rfl
  follows turns := by simp at turns

end History
end IndexCoverage
