import IndexCoverage.Proofs.Runner.Steps

/-! Where in a working tree a request stands. The settings that count are those of the root. The
settings of the directory that the request names are loaded all the same, since the root is not
known before, and they make a difference in two ways: if they cannot be loaded, the request fails,
and if they come from a file in the root, as a link may lead there, the settings of the root are
not loaded any more. -/

namespace IndexCoverage

/-- A path leads to a directory, and git reports there a working tree with its top level at
`root`. -/
structure Session.Stands (s : Session) (path : Text) (place root : List Text)
    (topLevel head : Text) (origin : Git.Reply) : Prop where
  dir : s.disk.HasDir place
  leads : s.disk.locate path = .ok (Path.ofPlace place)
  reports : s.git.Reports (Path.ofPlace place) topLevel head origin
  top : topLevel.trim = (Path.ofPlace root).text

def Request.effective (request : Request) (settings : Settings) : Settings :=
  if request.buildDataDir.isEmpty then settings
  else { settings with buildDataDir := request.buildDataDir }

/-- The settings at a place in a working tree make no difference to a request: they can be loaded
and are not from the root's directory, or they come to what the root's come to. -/
def Request.Indifferent (request : Request) (disk : Disk) (depth : Nat)
    (place root : List Text) : Prop :=
  (∃ near, Settings.load disk depth (Path.ofPlace place) = .ok near ∧
    near.root ≠ Path.ofPlace root) ∨
  (Settings.load disk depth (Path.ofPlace place)).map request.effective =
    (Settings.load disk depth (Path.ofPlace root)).map request.effective

namespace Runner

section Standpoint

variable {s : Session} {request whole : Request} {place root : List Text}
  {topLevel head : Text} {origin : Git.Reply}

theorem settingsOf_of_hasDir {disk : Disk} {depth : Nat} {repo : Repo} (dir : disk.HasDir root)
    (top : repo.rootDir = (Path.ofPlace root).text) (near : Settings) :
    settingsOf disk depth repo near =
      if near.root = Path.ofPlace root then .ok near
      else Settings.load disk depth (Path.ofPlace root) := by
  have named : ¬repo.rootDir.isEmpty = true := by
    rw [top]
    exact Bool.false_ne_true
  rw [settingsOf, if_neg named, top, dir.spelled, dir.resolve, mapError_ok]
  simp only [Except.bind, eq_comm (a := Path.ofPlace root)]

/-- A first request is answered from three things: the settings where it stands, the repository
that git tells of, and the settings of the root. -/
theorem answer_of_stands (stands : s.Stands request.path place root topLevel head origin)
    (dir : s.disk.HasDir root) (installed : origin ≠ .missing) :
    ({} : Runner).answer s request =
      ((Settings.load s.disk s.limits.settings (Path.ofPlace place)).bind fun near =>
        if near.root = Path.ofPlace root then .ok near
        else Settings.load s.disk s.limits.settings (Path.ofPlace root)).map
          (contextOf request (Repo.told topLevel head origin)) := by
  obtain ⟨entries, lies⟩ := stands.dir.lies
  have opened : ({} : Runner).asked.answer s (Path.ofPlace place) =
      .ok (Repo.told topLevel head origin) :=
    Session.reported_of_reports lies stands.dir.enter stands.dir.spelled stands.reports installed
  have top : (Repo.told topLevel head origin).rootDir = (Path.ofPlace root).text := stands.top
  rw [answer, found, entry_of_locate stands.leads stands.dir.exists? stands.dir.locate]
  cases Settings.load s.disk s.limits.settings (Path.ofPlace place) with
  | error e => rfl
  | ok near =>
    change (((({} : Runner).asked.answer s (Path.ofPlace place)).bind fun repo =>
      (settingsOf s.disk s.limits.settings repo near).map (repo, ·)).map _) = _
    rw [opened]
    change (((settingsOf s.disk s.limits.settings _ near).map _).map _) = _
    rw [settingsOf_of_hasDir dir top]
    simp only [Except.bind]
    generalize (if near.root = Path.ofPlace root then Except.ok near else _) = counted
    cases counted <;> rfl

theorem answer_of_stands_root (stands : s.Stands request.path root root topLevel head origin)
    (installed : origin ≠ .missing) :
    ({} : Runner).answer s request =
      (Settings.load s.disk s.limits.settings (Path.ofPlace root)).map
        (contextOf request (Repo.told topLevel head origin)) := by
  rw [answer_of_stands stands stands.dir installed]
  cases loaded : Settings.load s.disk s.limits.settings (Path.ofPlace root) with
  | error e => rfl
  | ok near =>
    simp only [Except.bind]
    split <;> rfl

theorem contextOf_congr (commit : request.commit = whole.commit)
    (buildDataDir : request.buildDataDir = whole.buildDataDir) :
    contextOf request = contextOf whole := by
  funext repo settings
  rw [contextOf, contextOf, commit, buildDataDir]

theorem map_contextOf_eq_iff {repo : Repo} {one other : Except Failure Settings} :
    one.map (contextOf request repo) = other.map (contextOf request repo) ↔
      one.map request.effective = other.map request.effective := by
  have same (near far : Settings) : contextOf request repo near = contextOf request repo far ↔
      request.effective near = request.effective far := by
    simp [contextOf, Request.effective]
  cases one <;> cases other <;> simp [Except.map, same]

theorem answer_eq_iff_indifferent
    (stands : s.Stands request.path place root topLevel head origin)
    (atRoot : s.Stands whole.path root root topLevel head origin) (installed : origin ≠ .missing)
    (commit : request.commit = whole.commit)
    (buildDataDir : request.buildDataDir = whole.buildDataDir) :
    ({} : Runner).answer s request = ({} : Runner).answer s whole ↔
      request.Indifferent s.disk s.limits.settings place root := by
  rw [answer_of_stands stands atRoot.dir installed, answer_of_stands_root atRoot installed,
    ← contextOf_congr commit buildDataDir, map_contextOf_eq_iff, Request.Indifferent]
  cases Settings.load s.disk s.limits.settings (Path.ofPlace place) with
  | error e => simp [Except.bind, Except.map]
  | ok near =>
    by_cases own : near.root = Path.ofPlace root
    · simp [Except.bind, own]
    · simp [Except.bind, own]

/-- Wherever in a working tree a first request stands, its context is the one that it has in the
root, or it fails as it does there, exactly if the settings where it stands make no difference;
and then its report is the same too. -/
theorem standpoint_irrelevant_iff
    (stands : s.Stands request.path place root topLevel head origin)
    (atRoot : s.Stands whole.path root root topLevel head origin) (installed : origin ≠ .missing)
    (commit : request.commit = whole.commit)
    (buildDataDir : request.buildDataDir = whole.buildDataDir) :
    (((({} : Runner).context request).run s).1.1 = ((({} : Runner).context whole).run s).1.1 ↔
      request.Indifferent s.disk s.limits.settings place root) ∧
    (request.Indifferent s.disk s.limits.settings place root →
      ((({} : Runner).run request).run s).1.1 = ((({} : Runner).run whole).run s).1.1) := by
  obtain ⟨log, context⟩ := run_context {} request s
  obtain ⟨logWhole, contextWhole⟩ := run_context {} whole s
  obtain ⟨log', report⟩ := run_run {} request s
  obtain ⟨logWhole', reportWhole⟩ := run_run {} whole s
  have answers := answer_eq_iff_indifferent stands atRoot installed commit buildDataDir
  rw [context, contextWhole, report, reportWhole]
  refine ⟨answers, fun indifferent => ?_⟩
  dsimp only
  rw [reported, reported, answers.mpr indifferent]

theorem indifferent_of_own {disk : Disk} {depth : Nat} {near : Settings} (dir : disk.HasDir place)
    (own : Settings.locate disk (Path.ofPlace place) =
      .ok (Path.ofPlace (place ++ [settingsFileName])))
    (loaded : Settings.load disk depth (Path.ofPlace place) = .ok near) (below : place ≠ root) :
    request.Indifferent disk depth place root := by
  obtain ⟨file, located, resolved⟩ := Settings.root_of_load loaded
  obtain rfl := eq_of_eq_ok located own
  have parent : (Path.ofPlace (place ++ [settingsFileName])).parent = Path.ofPlace place := by
    rw [Path.ofPlace, Path.parent, List.dropLast_concat]
    rfl
  rw [parent] at resolved
  refine .inl ⟨near, loaded, fun same => below ?_⟩
  exact (Path.mk.inj ((eq_of_eq_ok dir.resolve resolved).trans same)).2

end Standpoint

section Nested

def nestedSettings : Bytes :=
  [98, 117, 105, 108, 100, 95, 100, 97, 116, 97, 95, 100, 105, 114, 58, 32, 120, 10]

def listedSettings : Bytes := [45, 32, 97, 10]

def nestedDisk : Disk where
  top := .dir [("r", .dir [(settingsFileName, .file []),
    ("p", .dir [(settingsFileName, .file nestedSettings)]),
    ("q", .dir [(settingsFileName, .file listedSettings)])])]
  workDir := []
  home := "/"

def nestedGit : Git := fun _ call =>
  match call.query with
  | .topLevel => .printed "/r\n"
  | .head => .printed "c\n"
  | .origin => .exit 1

def nestedSession : Session := { disk := nestedDisk, git := nestedGit, words := Fault.inWords }

theorem stands_nested {path : Text} {place : List Text} (dir : nestedDisk.HasDir place)
    (spelled : Path.ofText path = Path.ofPlace place) :
    nestedSession.Stands path place ["r"] "/r\n" "c\n" (.exit 1) := by
  obtain ⟨entries, lies⟩ := dir.lies
  exact ⟨dir, lies.locate spelled, ⟨fun _ => rfl, fun _ => rfl, fun _ => rfl⟩, rfl⟩

theorem dir_r : nestedDisk.HasDir ["r"] := ⟨⟨_, rfl, rfl, by decide, rfl, rfl⟩, rfl, by decide⟩

theorem dir_p : nestedDisk.HasDir ["r", "p"] := ⟨⟨_, rfl, rfl, by decide, rfl, rfl⟩, rfl, by decide⟩

theorem dir_q : nestedDisk.HasDir ["r", "q"] := ⟨⟨_, rfl, rfl, by decide, rfl, rfl⟩, rfl, by decide⟩

theorem load_p : Settings.load nestedDisk 480 (Path.ofPlace ["r", "p"]) =
    .ok { root := Path.ofPlace ["r", "p"], buildDataDir := "x" } := by
  have file : nestedDisk.LiesAt ["r", "p", settingsFileName] (.file nestedSettings) :=
    ⟨rfl, rfl, by decide, rfl, rfl⟩
  have dir : nestedDisk.LiesAt ["r", "p"] (.dir _) := ⟨rfl, rfl, by decide, rfl, rfl⟩
  have decoded : Text.ofUtf8? false nestedSettings = some "build_data_dir: x\n" := by decide +kernel
  rw [Settings.load_of_liesAt 480 dir file rfl decoded]
  decide +kernel

theorem load_q : Settings.load nestedDisk 480 (Path.ofPlace ["r", "q"]) =
    .error (.settings .notMapping) := by
  have file : nestedDisk.LiesAt ["r", "q", settingsFileName] (.file listedSettings) :=
    ⟨rfl, rfl, by decide, rfl, rfl⟩
  have dir : nestedDisk.LiesAt ["r", "q"] (.dir _) := ⟨rfl, rfl, by decide, rfl, rfl⟩
  have decoded : Text.ofUtf8? false listedSettings = some "- a\n" := by decide +kernel
  rw [Settings.load_of_liesAt 480 dir file rfl decoded]
  decide +kernel

theorem load_r : Settings.load nestedDisk 480 (Path.ofPlace ["r"]) =
    .ok { root := Path.ofPlace ["r"] } := by
  have file : nestedDisk.LiesAt ["r", settingsFileName] (.file []) :=
    ⟨rfl, rfl, by decide, rfl, rfl⟩
  have dir : nestedDisk.LiesAt ["r"] (.dir _) := ⟨rfl, rfl, by decide, rfl, rfl⟩
  rw [Settings.load_of_liesAt 480 dir file rfl rfl]
  rfl

/-- The settings of a directory have no say, though they ask for something else. -/
theorem standpoint_irrelevant_nested :
    ((({} : Runner).context { path := "/r/p" }).run nestedSession).1.1 =
        ((({} : Runner).context { path := "/r" }).run nestedSession).1.1 ∧
      ((({} : Runner).run { path := "/r/p" }).run nestedSession).1.1 =
        ((({} : Runner).run { path := "/r" }).run nestedSession).1.1 := by
  have irrelevant := @standpoint_irrelevant_iff nestedSession { path := "/r/p" } { path := "/r" }
    ["r", "p"] ["r"] "/r\n" "c\n" (.exit 1) (stands_nested dir_p rfl) (stands_nested dir_r rfl)
    Git.Reply.noConfusion rfl rfl
  have indifferent : Request.Indifferent { path := "/r/p" } nestedDisk 480 ["r", "p"] ["r"] :=
    .inl ⟨_, load_p, by decide⟩
  exact ⟨irrelevant.1.mpr indifferent, irrelevant.2 indifferent⟩

/-- Settings that are no mapping let a request fail that stands in their directory, but not one
that stands in the root. -/
theorem standpoint_matters_nested :
    nestedSession.Stands "/r/q" ["r", "q"] ["r"] "/r\n" "c\n" (.exit 1) ∧
      nestedSession.Stands "/r" ["r"] ["r"] "/r\n" "c\n" (.exit 1) ∧
      ((({} : Runner).context { path := "/r/q" }).run nestedSession).1.1 =
        .error (.settings .notMapping) ∧
      ((({} : Runner).context { path := "/r" }).run nestedSession).1.1 =
        .ok { repo := { rootDir := "/r", commit := "c" }, settings := { root := ⟨.root, ["r"]⟩ } }
      := by
  have here : nestedSession.Stands "/r/q" ["r", "q"] ["r"] "/r\n" "c\n" (.exit 1) :=
    stands_nested dir_q rfl
  have atRoot : nestedSession.Stands "/r" ["r"] ["r"] "/r\n" "c\n" (.exit 1) :=
    stands_nested dir_r rfl
  obtain ⟨log, context⟩ := run_context {} { path := "/r/q" } nestedSession
  obtain ⟨logWhole, contextWhole⟩ := run_context {} { path := "/r" } nestedSession
  refine ⟨here, atRoot, ?_, ?_⟩
  · rw [context, answer_of_stands here dir_r Git.Reply.noConfusion]
    change ((Settings.load nestedDisk 480 (Path.ofPlace ["r", "q"])).bind _).map _ = _
    rw [load_q]
    rfl
  · rw [contextWhole, answer_of_stands_root atRoot Git.Reply.noConfusion]
    change (Settings.load nestedDisk 480 (Path.ofPlace ["r"])).map _ = _
    rw [load_r]
    rfl

end Nested

end Runner
end IndexCoverage
