import IndexCoverage.Proofs.Coverage.Steps
import IndexCoverage.Proofs.Repo.Opening
import IndexCoverage.Proofs.Settings.Loading
import IndexCoverage.Runner

/-! What one request does to a runner, in three parts: the answer, the runner afterwards and the
session afterwards. What a request says in place of the repository's commit and of the settings
is put into the answer at the very end; the runner and the questions to git do not depend on it. -/

namespace IndexCoverage
namespace Runner

def startIn (disk : Disk) (depth : Nat) (path : Text) : Except Failure (Path × Settings) :=
  ((disk.locate path).mapError .path).bind fun place =>
    ((disk.exists? place).mapError .path).bind fun there =>
      if there then (Settings.load disk depth place).map (place, ·) else .error (.noRepository path)

/-- The directory whose repository is opened for a path, and the settings at the path. What the
path leads to is followed once more when the repository is opened. -/
def entry (disk : Disk) (depth : Nat) (path : Text) : Except Failure (Path × Settings) :=
  (startIn disk depth path).bind fun (place, near) =>
    ((disk.locate place.text).mapError .path).map (·, near)

def settingsOf (disk : Disk) (depth : Nat) (repo : Repo) (near : Settings) :
    Except Failure Settings :=
  if repo.rootDir.isEmpty then .ok near
  else
    ((disk.resolve (Path.ofText repo.rootDir)).mapError .path).bind fun root =>
      if root = near.root then .ok near else Settings.load disk depth (Path.ofText repo.rootDir)

def asked (runner : Runner) : Opener := runner.opener.getD { cache := false }

def found (runner : Runner) (s : Session) (path : Text) : Except Failure (Repo × Settings) :=
  (entry s.disk s.limits.settings path).bind fun (home, near) =>
    (runner.asked.answer s home).bind fun repo =>
      (settingsOf s.disk s.limits.settings repo near).map (repo, ·)

def answer (runner : Runner) (s : Session) (request : Request) : Except Failure Context :=
  (runner.found s request.path).map fun (repo, settings) => contextOf request repo settings

/-- The runner after a request for a path. An opener that it keeps may remember one more result;
if it keeps none, it makes one once there are settings. -/
def next (runner : Runner) (s : Session) (path : Text) : Runner where
  opener :=
    match runner.opener, entry s.disk s.limits.settings path with
    | some opener, .ok (home, _) => some (opener.keep home (s.reported home))
    | some opener, .error _ => some opener
    | none, _ =>
      (runner.found s path).toOption.map fun (_, settings) => { cache := settings.cacheRepo }

def visited (runner : Runner) (s : Session) (path : Text) : Session :=
  match entry s.disk s.limits.settings path with
  | .ok (home, _) => runner.asked.after s home
  | .error _ => s

theorem run_start (path : Text) (s : Session) :
    (start path).run.run s = (startIn s.disk s.limits.settings path, s) := by
  unfold start startIn
  rw [Action.run_bind, Action.run_ofPath]
  cases s.disk.locate path with
  | error e => rfl
  | ok place =>
    rw [mapError_ok]
    change StateT.run (ExceptT.run (Action.ofPath _ >>= _)) s = _
    rw [Action.run_bind, Action.run_ofPath]
    simp only [Except.bind]
    cases s.disk.exists? place with
    | error e => rfl
    | ok there =>
      cases there with
      | false => rfl
      | true =>
        change StateT.run (ExceptT.run
          (Action.ofExcept (Settings.load s.disk s.limits.settings place) >>= _)) s = _
        rw [Action.run_bind, Action.run_ofExcept]
        cases Settings.load s.disk s.limits.settings place <;> rfl

theorem run_rootSettings (repo : Repo) (near : Settings) (s : Session) :
    (rootSettings repo near).run.run s = (settingsOf s.disk s.limits.settings repo near, s) := by
  unfold rootSettings settingsOf
  split
  · rfl
  · rw [Action.run_bind, Action.run_ofPath]
    cases s.disk.resolve (Path.ofText repo.rootDir) with
    | error e => rfl
    | ok root =>
      simp only [mapError_ok, Except.bind]
      split
      · rfl
      · exact Action.run_ofExcept _ _

theorem entry_eq_ok_iff {disk : Disk} {depth : Nat} {path : Text} {home : Path} {near : Settings} :
    entry disk depth path = .ok (home, near) ↔
      ∃ place, startIn disk depth path = .ok (place, near) ∧ disk.locate place.text = .ok home := by
  unfold entry
  simp only [bind_eq_ok_iff, map_eq_ok_iff, mapError_eq_ok_iff, Prod.mk.injEq, Prod.exists]
  constructor
  · rintro ⟨place, _, started, _, located, rfl, rfl⟩
    exact ⟨place, started, located⟩
  · rintro ⟨place, started, located⟩
    exact ⟨place, near, started, home, located, rfl, rfl⟩

theorem entry_of_locate {disk : Disk} {depth : Nat} {path : Text} {place : Path}
    (leads : disk.locate path = .ok place) (there : disk.exists? place = .ok true)
    (again : disk.locate place.text = .ok place) :
    entry disk depth path = (Settings.load disk depth place).map (place, ·) := by
  rw [entry, startIn, leads, mapError_ok]
  simp only [Except.bind, there, mapError_ok, if_true]
  cases Settings.load disk depth place with
  | error e => rfl
  | ok near => simp only [Except.map, again, mapError_ok]

section Plain

variable {disk : Disk} {depth : Nat} {names : List Text} {entries : List (Text × Node)}
  {near : Settings}

theorem entry_of_liesAt {path : Text} (dir : disk.LiesAt names (.dir entries))
    (spelled : Path.ofText path = Path.ofPlace names)
    (again : Path.ofText (Path.ofPlace names).text = Path.ofPlace names)
    (loaded : Settings.load disk depth (Path.ofPlace names) = .ok near) :
    entry disk depth path = .ok (Path.ofPlace names, near) := by
  have there : disk.exists? (Path.ofPlace names) = .ok true := dir.holds _
  rw [entry_of_locate (dir.locate spelled) there (dir.locate again), loaded]
  rfl

theorem settingsOf_of_liesAt {repo : Repo} (dir : disk.LiesAt names (.dir entries))
    (root : Path.ofText repo.rootDir = Path.ofPlace names) (own : near.root = Path.ofPlace names) :
    settingsOf disk depth repo near = .ok near := by
  unfold settingsOf
  split
  · rfl
  · rw [root, dir.resolve, mapError_ok, own]
    exact if_pos rfl

end Plain

theorem run_context_of_refused (runner : Runner) {request : Request} {s : Session} {e : Failure}
    (refused : entry s.disk s.limits.settings request.path = .error e) :
    (runner.context request).run s = ((.error e, runner), s) := by
  unfold context
  rw [StateT.run_bind, run_start]
  unfold entry at refused
  cases started : startIn s.disk s.limits.settings request.path with
  | error other =>
    rw [started] at refused
    obtain rfl : other = e := Except.error.inj refused
    rfl
  | ok found =>
    obtain ⟨place, near⟩ := found
    rw [started] at refused
    change ((s.disk.locate place.text).mapError .path).map (·, near) = .error e at refused
    change StateT.run (runner.asked.openPath place.text >>= _) s = _
    rw [StateT.run_bind, Opener.run_openPath]
    cases located : s.disk.locate place.text with
    | ok home => simp [located, Except.map, mapError_ok] at refused
    | error cause =>
      rw [located] at refused
      obtain rfl : Failure.path cause = e := Except.error.inj refused
      rcases runner with ⟨_ | opener⟩ <;> rfl

theorem found_of_entry {runner : Runner} {path : Text} {s : Session} {home : Path}
    {near : Settings} (entered : entry s.disk s.limits.settings path = .ok (home, near)) :
    runner.found s path = (runner.asked.answer s home).bind fun repo =>
      (settingsOf s.disk s.limits.settings repo near).map (repo, ·) := by
  rw [found, entered]
  rfl

theorem answer_eq_ok {runner : Runner} {s : Session} {request : Request} {context : Context}
    (answered : runner.answer s request = .ok context) :
    ∃ home near repo settings, entry s.disk s.limits.settings request.path = .ok (home, near) ∧
      runner.asked.answer s home = .ok repo ∧ contextOf request repo settings = context := by
  obtain ⟨⟨repo, settings⟩, made, same⟩ := map_eq_ok_iff.mp answered
  obtain ⟨⟨home, near⟩, entered, made⟩ := bind_eq_ok_iff.mp made
  obtain ⟨repo', opened, made⟩ := bind_eq_ok_iff.mp made
  obtain ⟨settings', -, made⟩ := map_eq_ok_iff.mp made
  obtain ⟨rfl, rfl⟩ := Prod.mk.inj made
  exact ⟨home, near, _, _, entered, opened, same⟩

theorem repo_contextOf {request : Request} (plain : request.commit = []) (repo : Repo)
    (settings : Settings) : (contextOf request repo settings).repo = repo := by
  simp [contextOf, plain]

theorem cacheRepo_contextOf (request : Request) (repo : Repo) (settings : Settings) :
    (contextOf request repo settings).settings.cacheRepo = settings.cacheRepo := by
  by_cases own : request.buildDataDir.isEmpty <;> simp [contextOf, own]

theorem run_context_of_entry (runner : Runner) {request : Request} {s : Session} {home : Path}
    {near : Settings} (entered : entry s.disk s.limits.settings request.path = .ok (home, near)) :
    ∃ log, (runner.context request).run s =
      ((runner.answer s request, runner.next s request.path),
        (runner.asked.after s home).withLog log) := by
  obtain ⟨place, started, located⟩ := entry_eq_ok_iff.mp entered
  have made := @found_of_entry runner _ _ _ _ entered
  unfold context answer next
  rw [StateT.run_bind, run_start, started, entered]
  change ∃ log, StateT.run (runner.asked.openPath place.text >>= _) s = _
  rw [StateT.run_bind, Opener.run_openPath, located]
  dsimp only [bind]
  cases opened : runner.asked.answer s home with
  | error e =>
    rw [opened, Except.bind] at made
    refine ⟨(runner.asked.after s home).log, ?_⟩
    rw [made]
    rcases runner with ⟨_ | opener⟩ <;> rfl
  | ok repo =>
    have unmoved : (rootSettings repo near).run.run (runner.asked.after s home) =
        (settingsOf s.disk s.limits.settings repo near, runner.asked.after s home) := by
      rw [run_rootSettings, Opener.disk_after, Opener.limits_after]
    change ∃ log, StateT.run ((rootSettings repo near).run >>= _)
      (runner.asked.after s home) = _
    rw [StateT.run_bind, unmoved]
    rw [opened, Except.bind] at made
    cases settled : settingsOf s.disk s.limits.settings repo near with
    | error e =>
      rw [settled, Except.map] at made
      refine ⟨(runner.asked.after s home).log, ?_⟩
      rw [made]
      rcases runner with ⟨_ | opener⟩ <;> rfl
    | ok settings =>
      rw [settled, Except.map] at made
      refine ⟨(runner.asked.after s home).log ++ [⟨"orchestrator", .debug, Text.join
        ["Effective configuration: ", (contextOf request repo settings).settings.shown]⟩], ?_⟩
      rw [made]
      rcases runner with ⟨_ | opener⟩ <;> rfl

theorem run_context (runner : Runner) (request : Request) (s : Session) :
    ∃ log, (runner.context request).run s =
      ((runner.answer s request, runner.next s request.path),
        (runner.visited s request.path).withLog log) := by
  unfold visited
  cases entered : entry s.disk s.limits.settings request.path with
  | ok start =>
    obtain ⟨home, near⟩ := start
    exact run_context_of_entry runner entered
  | error e =>
    have made : runner.found s request.path = .error e := by
      rw [found, entered]
      rfl
    refine ⟨s.log, ?_⟩
    unfold answer next
    rw [run_context_of_refused runner entered, entered, made]
    rcases runner with ⟨_ | opener⟩ <;> rfl

def reported (runner : Runner) (s : Session) (request : Request) : Except Failure Report :=
  (runner.answer s request).bind fun context => Logged.outcome (context.report s.limits s.disk) []

theorem run_compute (context : Context) (s : Session) :
    ∃ log, (compute context).run.run s =
      (Logged.outcome (context.report s.limits s.disk) [], s.withLog log) := by
  unfold compute
  dsimp only
  rw [Action.run_bind, Action.run_note]
  dsimp only
  rw [Action.run_get_bind, Action.run_bind, Action.run_ofLogged, Session.disk_withLog,
    Session.limits_withLog, context.blind_report s.limits s.disk _ []]
  cases Logged.outcome (context.report s.limits s.disk) [] with
  | error e => exact ⟨_, rfl⟩
  | ok report =>
    dsimp only
    rw [Action.run_bind, Action.run_note]
    exact ⟨_, rfl⟩

theorem disk_visited (runner : Runner) (s : Session) (path : Text) :
    (runner.visited s path).disk = s.disk := by
  unfold visited
  split
  · exact Opener.disk_after _ _ _
  · rfl

theorem limits_visited (runner : Runner) (s : Session) (path : Text) :
    (runner.visited s path).limits = s.limits := by
  unfold visited
  split
  · exact Opener.limits_after _ _ _
  · rfl

theorem run_run (runner : Runner) (request : Request) (s : Session) :
    ∃ log, (runner.run request).run s =
      ((runner.reported s request, runner.next s request.path),
        (runner.visited s request.path).withLog log) := by
  obtain ⟨log, met⟩ := run_context runner request s
  unfold run reported
  rw [StateT.run_bind, met]
  cases runner.answer s request with
  | error e => exact ⟨log, rfl⟩
  | ok context =>
    obtain ⟨log', computed⟩ := run_compute context ((runner.visited s request.path).withLog log)
    refine ⟨log', ?_⟩
    change StateT.run ((compute context).run >>= _) _ = _
    rw [StateT.run_bind, computed]
    rw [Session.disk_withLog, disk_visited, Session.limits_withLog, limits_visited]
    rfl

end Runner
end IndexCoverage
