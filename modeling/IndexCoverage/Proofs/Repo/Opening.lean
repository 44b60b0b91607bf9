import IndexCoverage.Proofs.Disk.Plain
import IndexCoverage.Proofs.Session.Actions
import IndexCoverage.Repo.Opener

/-! What opening a repository comes to. It reads the disk and asks git; it never looks at the
log. With a memory the result for a place is the one that is remembered, if there is one, and
else what git reports, which is remembered from then on if it is about the repository. -/

namespace IndexCoverage

/-- What git reports of the working tree around a place, whatever it has been asked before. -/
structure Git.Reports (git : Git) (place : Path) (topLevel head : Text) (origin : Git.Reply) :
    Prop where
  topLevel : ∀ calls, git calls ⟨.topLevel, place⟩ = .printed topLevel
  head : ∀ calls, git calls ⟨.head, place⟩ = .printed head
  origin : ∀ calls, git calls ⟨.origin, place⟩ = origin

structure Git.Replies where
  topLevel : Git.Reply
  head : Git.Reply
  origin : Git.Reply

def Session.replies (s : Session) (place : Path) : Git.Replies where
  topLevel := s.git s.calls ⟨.topLevel, place⟩
  head := s.git (s.calls ++ [⟨.topLevel, place⟩]) ⟨.head, place⟩
  origin := s.git (s.calls ++ [⟨.topLevel, place⟩] ++ [⟨.head, place⟩]) ⟨.origin, place⟩

namespace Repo

theorem run_asked (place : Path) (query : Git.Query) (s : Session) :
    (asked place query).run.run s =
      (match (s.git s.calls ⟨query, place⟩).result query with
        | .ok text => .ok text.trim
        | .error e => .error (.repo (.command place.text e)), s.withCall ⟨query, place⟩) := by
  unfold asked
  rw [Action.run_bind, Action.run_ask]
  dsimp only
  cases (s.git s.calls ⟨query, place⟩).result query <;> rfl

theorem run_originOf (place : Path) (s : Session) :
    (originOf place).run.run s =
      (match (s.git s.calls ⟨.origin, place⟩).result .origin with
        | .ok text => .ok text.trim
        | .error (.exit _ _) => .ok []
        | .error e => .error (.command e),
        s.withCall ⟨.origin, place⟩) := by
  unfold originOf
  rw [Action.run_bind, Action.run_ask]
  dsimp only
  cases (s.git s.calls ⟨.origin, place⟩).result .origin with
  | ok text => rfl
  | error e => cases e <;> rfl

theorem calm_asked (place : Path) (query : Git.Query) : Action.Calm (asked place query) := by
  refine (Action.calm_ask place query).bind fun answer => ?_
  cases answer with
  | ok text => exact Action.calm_pure _
  | error e => exact Action.calm_throw _

theorem calm_originOf (place : Path) : Action.Calm (originOf place) := by
  refine (Action.calm_ask place .origin).bind fun answer => ?_
  cases answer with
  | ok text => exact Action.calm_pure _
  | error e =>
    cases e with
    | exit command status => exact Action.calm_pure _
    | _ => exact Action.calm_throw _

theorem calm_uriOf (rootDir cloneUrl : Text) : Action.Calm (uriOf rootDir cloneUrl) := by
  unfold uriOf
  split
  · exact Action.calm_pure _
  · cases canonicalUri cloneUrl with
    | ok uri => exact Action.calm_pure _
    | error e => exact (Action.calm_note _ _ _).bind fun _ => Action.calm_pure _

def uriFor (cloneUrl : Text) : Text :=
  if cloneUrl.isEmpty then [] else (canonicalUri cloneUrl).toOption.getD []

theorem value_uriOf (rootDir cloneUrl : Text) (s : Session) :
    ((uriOf rootDir cloneUrl).run.run s).1 = .ok (uriFor cloneUrl) := by
  unfold uriOf uriFor
  split
  · rfl
  · cases canonicalUri cloneUrl with
    | ok uri => rfl
    | error e => rfl

def told (topLevel head : Text) (origin : Git.Reply) : Repo :=
  let cloneUrl := match origin with
    | .printed url => url.trim
    | _ => []
  { rootDir := topLevel.trim, commit := head.trim, cloneUrl, uri := uriFor cloneUrl }

/-- What the three answers come to. Git has to tell the root and the commit; it may fail at the
origin, but it has to be there. -/
def fromReplies (place : Path) (replies : Git.Replies) : Except Failure Repo := do
  let topLevel ← (replies.topLevel.result .topLevel).mapError (.repo <| .command place.text ·)
  let head ← (replies.head.result .head).mapError (.repo <| .command place.text ·)
  if replies.origin = .missing then throw (.command (.missing "git"))
  return told topLevel head replies.origin

theorem value_origin (rootDir commit : Text) (place : Path) (s : Session) :
    ((do
        let cloneUrl ← originOf place
        let uri ← uriOf rootDir cloneUrl
        return { rootDir, commit, cloneUrl, uri } : Action Repo).run.run s).1 =
      if s.git s.calls ⟨.origin, place⟩ = .missing then .error (.command (.missing "git"))
      else
        let cloneUrl := match s.git s.calls ⟨.origin, place⟩ with
          | .printed url => url.trim
          | _ => []
        .ok { rootDir, commit, cloneUrl, uri := uriFor cloneUrl } := by
  rw [Action.run_bind, run_originOf]
  cases s.git s.calls ⟨.origin, place⟩ with
  | missing => rfl
  | exit status => rfl
  | printed url =>
    dsimp only [Git.Reply.result]
    rw [Action.run_bind]
    have named := value_uriOf rootDir url.trim (s.withCall ⟨.origin, place⟩)
    generalize (uriOf rootDir url.trim).run.run _ = found at named ⊢
    obtain ⟨uri, t⟩ := found
    obtain rfl : uri = .ok (uriFor url.trim) := named
    rfl

theorem value_ofDir (place : Path) (s : Session) :
    ((ofDir place).run.run s).1 = fromReplies place (s.replies place) := by
  unfold ofDir fromReplies Session.replies
  rw [Action.run_bind, run_asked]
  cases s.git s.calls ⟨.topLevel, place⟩ with
  | exit status => rfl
  | missing => rfl
  | printed topLevel =>
    dsimp only [Git.Reply.result]
    rw [Action.run_bind, run_asked, Session.git_withCall, Session.calls_withCall]
    cases s.git (s.calls ++ [⟨.topLevel, place⟩]) ⟨.head, place⟩ with
    | exit status => rfl
    | missing => rfl
    | printed head =>
      dsimp only [Git.Reply.result]
      rw [value_origin]
      rfl

/-- A directory that can be entered is asked about three times; nothing else counts for what is
found there. -/
theorem value_containing (path : Text) (s : Session) :
    ((containing path).run.run s).1 =
      ((s.disk.locate path).mapError .path).bind fun place =>
        ((s.disk.isDir place).mapError .path).bind fun directory =>
          if !directory then .error (.repo (.notDirectory path))
          else if (s.disk.rights place.parts).enter then fromReplies place (s.replies place)
          else .error (.repo (.command place.text (.closed place.text))) := by
  unfold containing
  rw [Action.run_bind, Action.run_ofPath]
  cases s.disk.locate path with
  | error e => rfl
  | ok place =>
    dsimp only [mapError_ok]
    rw [Action.run_bind, Action.run_ofPath]
    simp only [Except.bind]
    cases s.disk.isDir place with
    | error e => rfl
    | ok directory =>
      cases directory with
      | false => rfl
      | true =>
        change ((get >>= _ : Action Repo).run.run s).1 = _
        rw [Action.run_get_bind]
        cases (s.disk.rights place.parts).enter with
        | false => rfl
        | true => exact value_ofDir place s

theorem value_containing_of_isDir {path : Text} {place : Path} {s : Session}
    (leads : s.disk.locate path = .ok place) (directory : s.disk.isDir place = .ok true)
    (enter : (s.disk.rights place.parts).enter = true) :
    ((containing path).run.run s).1 = fromReplies place (s.replies place) := by
  rw [value_containing, leads, mapError_ok]
  simp only [Except.bind, directory, mapError_ok, enter, Bool.not_true, Bool.false_eq_true,
    if_false, if_true]

theorem calm_ofDir (place : Path) : Action.Calm (ofDir place) := by
  refine (calm_asked place _).bind fun rootDir => (calm_asked place _).bind fun commit => ?_
  refine (calm_originOf place).bind fun cloneUrl => (calm_uriOf rootDir cloneUrl).bind fun _ => ?_
  exact Action.calm_pure _

theorem calm_containing (path : Text) : Action.Calm (containing path) := by
  refine (Action.calm_ofPath _).bind fun place => (Action.calm_ofPath _).bind fun directory => ?_
  cases directory with
  | false => exact Action.calm_throw _
  | true =>
    refine Action.calm_get_bind (fun s => ?_) fun s t same => ?_
    · dsimp only
      cases (s.disk.rights place.parts).enter with
      | false => exact Action.calm_throw _
      | true => exact calm_ofDir place
    · rw [Session.disk_of_unlogged same]

end Repo

namespace Session

def reported (s : Session) (place : Path) : Except Failure Repo :=
  ((Repo.containing place.text).run.run s).1

def afterReport (s : Session) (place : Path) : Session :=
  ((Repo.containing place.text).run.run s).2

theorem disk_afterReport (s : Session) (place : Path) : (s.afterReport place).disk = s.disk :=
  (Repo.calm_containing place.text).disk s

theorem limits_afterReport (s : Session) (place : Path) :
    (s.afterReport place).limits = s.limits := (Repo.calm_containing place.text).limits s

theorem reported_of_unlogged {s t : Session} (h : s.unlogged = t.unlogged) (place : Path) :
    s.reported place = t.reported place := (Repo.calm_containing place.text).value h

theorem afterReport_of_unlogged {s t : Session} (h : s.unlogged = t.unlogged) (place : Path) :
    (s.afterReport place).unlogged = (t.afterReport place).unlogged :=
  (Repo.calm_containing place.text).rest h

theorem reported_of_reports {s : Session} {names : List Text} {entries : List (Text × Node)}
    {topLevel head : Text} {origin : Git.Reply} (dir : s.disk.LiesAt names (.dir entries))
    (enter : (s.disk.rights names).enter = true)
    (spelled : Path.ofText (Path.ofPlace names).text = Path.ofPlace names)
    (reports : s.git.Reports (Path.ofPlace names) topLevel head origin)
    (installed : origin ≠ .missing) :
    s.reported (Path.ofPlace names) = .ok (Repo.told topLevel head origin) := by
  have isDir : s.disk.isDir (Path.ofPlace names) = .ok true := dir.holds _
  have replies : s.replies (Path.ofPlace names) = ⟨.printed topLevel, .printed head, origin⟩ := by
    rw [Session.replies, reports.topLevel, reports.head, reports.origin]
  unfold reported
  rw [Repo.value_containing_of_isDir (dir.locate spelled) isDir enter, replies]
  exact if_neg installed

theorem reported_of_replies {s : Session} {names : List Text} {entries : List (Text × Node)}
    {rootDir commit : Text} {status : Int} (dir : s.disk.LiesAt names (.dir entries))
    (enter : (s.disk.rights names).enter = true)
    (spelled : Path.ofText (Path.ofPlace names).text = Path.ofPlace names)
    (top : ∀ calls, s.git calls ⟨.topLevel, Path.ofPlace names⟩ = .printed rootDir)
    (head : ∀ calls, s.git calls ⟨.head, Path.ofPlace names⟩ = .printed commit)
    (origin : ∀ calls, s.git calls ⟨.origin, Path.ofPlace names⟩ = .exit status) :
    s.reported (Path.ofPlace names) = .ok { rootDir := rootDir.trim, commit := commit.trim } :=
  reported_of_reports dir enter spelled ⟨top, head, origin⟩ Git.Reply.noConfusion

end Session

namespace Opener

def kept? : Except Failure Repo → Option (Except RepoError Repo)
  | .ok repo => some (.ok repo)
  | .error (.repo e) => some (.error e)
  | .error _ => none

def known? (opener : Opener) (place : Path) : Option (Except RepoError Repo) :=
  if opener.cache then opener.results.lookup place else none

def keep (opener : Opener) (place : Path) (result : Except Failure Repo) : Opener :=
  if opener.cache && (opener.known? place).isNone then opener.remember place result else opener

def answer (opener : Opener) (s : Session) (place : Path) : Except Failure Repo :=
  match opener.known? place with
  | some result => result.mapError .repo
  | none => s.reported place

theorem answer_eq_ok_iff {opener : Opener} {s : Session} {place : Path} {repo : Repo} :
    opener.answer s place = .ok repo ↔ opener.known? place = some (.ok repo) ∨
      opener.known? place = none ∧ s.reported place = .ok repo := by
  unfold answer
  cases opener.known? place with
  | none => simp
  | some result => simp [mapError_eq_ok_iff]

def after (opener : Opener) (s : Session) (place : Path) : Session :=
  if (opener.known? place).isSome then s else s.afterReport place

theorem disk_after (opener : Opener) (s : Session) (place : Path) :
    (opener.after s place).disk = s.disk := by
  unfold after
  split
  · rfl
  · exact s.disk_afterReport place

theorem limits_after (opener : Opener) (s : Session) (place : Path) :
    (opener.after s place).limits = s.limits := by
  unfold after
  split
  · rfl
  · exact s.limits_afterReport place

@[simp] theorem known?_new (caches : Bool) (place : Path) :
    ({ cache := caches } : Opener).known? place = none := by
  cases caches <;> rfl

theorem cache_remember (opener : Opener) (place : Path) (result : Except Failure Repo) :
    (opener.remember place result).cache = opener.cache := by
  unfold remember
  split <;> rfl

theorem lookup_remember (opener : Opener) (place other : Path) (result : Except Failure Repo) :
    (opener.remember place result).results.lookup other =
      ((if other = place then kept? result else none).or (opener.results.lookup other)) := by
  by_cases same : other = place
  · rw [if_pos same, same]
    unfold remember kept?
    split <;> simp
  · rw [if_neg same, Option.none_or]
    have apart : (other == place) = false := beq_false_of_ne same
    unfold remember
    split <;> simp [List.lookup_cons, apart]

@[simp] theorem cache_keep (opener : Opener) (place : Path) (result : Except Failure Repo) :
    (opener.keep place result).cache = opener.cache := by
  unfold keep
  split
  · exact cache_remember opener place result
  · rfl

theorem known?_keep (opener : Opener) (place other : Path) (result : Except Failure Repo) :
    (opener.keep place result).known? other =
      (opener.known? other).or (if opener.cache ∧ other = place then kept? result else none) := by
  cases caches : opener.cache with
  | false => simp [known?, caches]
  | true =>
    simp only [true_and]
    cases known : opener.known? place with
    | some first =>
      have same : opener.keep place result = opener := by simp [keep, known]
      rw [same]
      by_cases at_place : other = place
      · rw [at_place, known, Option.some_or]
      · rw [if_neg at_place, Option.or_none]
    | none =>
      have kept : opener.keep place result = opener.remember place result := by
        simp [keep, known, caches]
      have found (o : Opener) (h : o.cache = true) : o.known? other = o.results.lookup other :=
        if_pos h
      rw [kept, found _ ((cache_remember _ _ _).trans caches), lookup_remember, found _ caches]
      by_cases at_place : other = place
      · subst at_place
        rw [← found _ caches, known, Option.or_none, Option.none_or]
      · rw [if_neg at_place, Option.none_or, Option.or_none]

theorem run_openPlace (opener : Opener) (s : Session) (place : Path) :
    (opener.openPlace place).run s =
      ((opener.answer s place, opener.keep place (s.reported place)), opener.after s place) := by
  unfold openPlace answer keep after known?
  cases caches : opener.cache with
  | false => rfl
  | true =>
    cases opener.results.lookup place with
    | none => rfl
    | some result => rfl

theorem run_openPath (opener : Opener) (path : Text) (s : Session) :
    (opener.openPath path).run s =
      match s.disk.locate path with
      | .ok place =>
        ((opener.answer s place, opener.keep place (s.reported place)), opener.after s place)
      | .error e => ((.error (.path e), opener), s) := by
  unfold openPath
  change StateT.run (match s.disk.locate path with
    | .ok place => opener.openPlace place
    | .error e => pure (.error (.path e), opener)) s = _
  cases s.disk.locate path with
  | ok place => exact run_openPlace opener s place
  | error e => rfl

end Opener
end IndexCoverage
