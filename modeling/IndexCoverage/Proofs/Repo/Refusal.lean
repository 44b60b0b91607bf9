import IndexCoverage.Proofs.Repo.Opening

/-! How opening a repository fails. A path that leads to no directory and a git that fails at the
root or at the commit are errors about the repository, and no text of an origin is an error at all.
Two things are not told so: that the system refuses to say whether there is a directory, as of one
below a directory that may not be entered or with a name that is too long, and that git is gone when
it is asked for the origin. -/

namespace IndexCoverage

structure Git.Replies.Tell (replies : Git.Replies) (repo : Repo) : Prop where
  rootDir : ∃ text, replies.topLevel = .printed text ∧ repo.rootDir = text.trim
  commit : ∃ text, replies.head = .printed text ∧ repo.commit = text.trim
  uri : repo.uri = [] ∨
    ∃ url, replies.origin = .printed url ∧ canonicalUri url.trim = .ok repo.uri

/-- Git tells the root and the commit, and is gone when it is asked for the origin. -/
structure Git.Replies.BreakOff (replies : Git.Replies) : Prop where
  topLevel : ∃ text, replies.topLevel = .printed text
  head : ∃ text, replies.head = .printed text
  origin : replies.origin = .missing

namespace Repo

theorem uriFor_eq_nil_or (cloneUrl : Text) :
    uriFor cloneUrl = [] ∨ canonicalUri cloneUrl = .ok (uriFor cloneUrl) := by
  unfold uriFor
  split
  · exact .inl rfl
  · cases canonicalUri cloneUrl with
    | ok uri => exact .inr rfl
    | error e => exact .inl rfl

theorem tell_told {topLevel head : Text} {origin : Git.Reply} :
    Git.Replies.Tell ⟨.printed topLevel, .printed head, origin⟩ (told topLevel head origin) where
  rootDir := ⟨topLevel, rfl, rfl⟩
  commit := ⟨head, rfl, rfl⟩
  uri := by
    cases origin with
    | printed url => exact (uriFor_eq_nil_or url.trim).imp_right fun named => ⟨url, rfl, named⟩
    | exit status => exact .inl rfl
    | missing => exact .inl rfl

/-- The three ways in which the answers end: with a repository, with an error about it, or with
git gone. -/
theorem fromReplies_cases (place : Path) (replies : Git.Replies) :
    (∃ repo, fromReplies place replies = .ok repo ∧ replies.Tell repo ∧ ¬replies.BreakOff) ∨
    (∃ e, fromReplies place replies = .error (.repo (.command place.text e)) ∧
      ¬replies.BreakOff) ∨
    (fromReplies place replies = .error (.command (.missing "git")) ∧ replies.BreakOff) := by
  obtain ⟨topLevel, head, origin⟩ := replies
  cases topLevel with
  | exit status => exact .inr (.inl ⟨_, rfl, fun broken => by simpa using broken.topLevel⟩)
  | missing => exact .inr (.inl ⟨_, rfl, fun broken => by simpa using broken.topLevel⟩)
  | printed rootText =>
    cases head with
    | exit status => exact .inr (.inl ⟨_, rfl, fun broken => by simpa using broken.head⟩)
    | missing => exact .inr (.inl ⟨_, rfl, fun broken => by simpa using broken.head⟩)
    | printed commitText =>
      by_cases gone : origin = .missing
      · subst gone
        exact .inr (.inr ⟨rfl, ⟨_, rfl⟩, ⟨_, rfl⟩, rfl⟩)
      · exact .inl ⟨told rootText commitText origin, if_neg gone, tell_told,
          fun broken => gone broken.origin⟩

/-- Opening ends with the repository that git tells of, or with an error about the repository. -/
def OpensOrRefuses (s : Session) (path : Text) : Prop :=
  (∃ repo place, ((containing path).run.run s).1 = .ok repo ∧
    s.disk.locate path = .ok place ∧ (s.replies place).Tell repo) ∨
  ∃ e, ((containing path).run.run s).1 = .error (.repo e)

theorem opensOrRefuses_of_replies_iff {s : Session} {path : Text} {place : Path}
    (leads : s.disk.locate path = .ok place) (directory : s.disk.isDir place = .ok true)
    (enter : (s.disk.rights place.parts).enter = true) :
    OpensOrRefuses s path ↔ ¬(s.replies place).BreakOff := by
  unfold OpensOrRefuses
  rw [value_containing_of_isDir leads directory enter]
  rcases fromReplies_cases place (s.replies place) with
    ⟨repo, made, tells, whole⟩ | ⟨e, made, whole⟩ | ⟨made, broken⟩
  · exact iff_of_true (.inl ⟨repo, place, made, leads, tells⟩) whole
  · exact iff_of_true (.inr ⟨_, made⟩) whole
  · exact iff_of_false (by simp [made]) (not_not_intro broken)

/-- Opening ends with a repository or with an error about it exactly if the path leads to a place,
the system says whether there is a directory, and git is not gone between the commit and the origin
of one that can be entered. -/
theorem opensOrRefuses_iff (s : Session) (path : Text) :
    OpensOrRefuses s path ↔
      ∃ place directory, s.disk.locate path = .ok place ∧ s.disk.isDir place = .ok directory ∧
        ¬(directory = true ∧ (s.disk.rights place.parts).enter = true ∧
          (s.replies place).BreakOff) := by
  cases leads : s.disk.locate path with
  | error e =>
    have value : ((containing path).run.run s).1 = .error (.path e) := by
      rw [value_containing, leads]
      rfl
    exact iff_of_false (by simp [OpensOrRefuses, value]) (by simp)
  | ok place =>
    simp only [Except.ok.injEq, exists_and_left, exists_eq_left']
    cases directory : s.disk.isDir place with
    | error e =>
      have value : ((containing path).run.run s).1 = .error (.path e) := by
        rw [value_containing, leads, mapError_ok]
        simp only [Except.bind, directory]
        rfl
      exact iff_of_false (by simp [OpensOrRefuses, value]) (by simp)
    | ok there =>
      simp only [Except.ok.injEq, exists_eq_left']
      cases there with
      | false =>
        have value : ((containing path).run.run s).1 = .error (.repo (.notDirectory path)) := by
          rw [value_containing, leads, mapError_ok]
          simp only [Except.bind, directory, mapError_ok]
          rfl
        exact iff_of_true (.inr ⟨_, value⟩) (by simp)
      | true =>
        cases enter : (s.disk.rights place.parts).enter with
        | false =>
          have value : ((containing path).run.run s).1 =
              .error (.repo (.command place.text (.closed place.text))) := by
            rw [value_containing, leads, mapError_ok]
            simp only [Except.bind, directory, mapError_ok, enter]
            rfl
          exact iff_of_true (.inr ⟨_, value⟩) (by simp)
        | true =>
          rw [opensOrRefuses_of_replies_iff leads directory enter]
          simp

def brokenOff : Session where
  disk := { top := .dir [("a", .dir [])], workDir := [], home := "/" }
  git := fun _ call =>
    match call.query with
    | .topLevel => .printed "/a\n"
    | .head => .printed "c0ffee\n"
    | .origin => .missing
  words := Fault.inWords

/-- That git is gone at the last of the three questions is no error about the repository. -/
theorem not_opensOrRefuses_of_origin_missing :
    brokenOff.disk.locate "/a" = .ok (Path.ofPlace ["a"]) ∧
      brokenOff.disk.isDir (Path.ofPlace ["a"]) = .ok true ∧
      ((containing "/a").run.run brokenOff).1 = .error (.command (.missing "git")) ∧
      ¬OpensOrRefuses brokenOff "/a" := by
  have dir : brokenOff.disk.LiesAt ["a"] (.dir []) := ⟨rfl, rfl, by decide, rfl, rfl⟩
  have leads : brokenOff.disk.locate "/a" = .ok (Path.ofPlace ["a"]) := dir.locate rfl
  have directory : brokenOff.disk.isDir (Path.ofPlace ["a"]) = .ok true := dir.holds _
  have value : ((containing "/a").run.run brokenOff).1 = .error (.command (.missing "git")) :=
    value_containing_of_isDir leads directory rfl
  refine ⟨leads, directory, value, ?_⟩
  simp [OpensOrRefuses, value]

end Repo
end IndexCoverage
