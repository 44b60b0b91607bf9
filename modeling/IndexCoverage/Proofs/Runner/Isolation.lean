import IndexCoverage.Proofs.Runner.Memory

/-! What a request says in place of a commit or a directory of build data is its own affair. Two
courses of requests in the same worlds and for the same paths leave the same runner behind,
whatever each of them says and whichever of them fail, and so the next request has one answer. -/

namespace IndexCoverage

structure Visit.Alike (visit other : Visit) : Prop where
  disk : visit.disk = other.disk
  git : visit.git = other.git
  path : visit.request.path = other.request.path

namespace Opener

variable {s t : Session}

theorem answer_of_unlogged (opener : Opener) (h : s.unlogged = t.unlogged) (place : Path) :
    opener.answer s place = opener.answer t place := by
  rw [answer, answer, Session.reported_of_unlogged h]

theorem after_of_unlogged (opener : Opener) (h : s.unlogged = t.unlogged) (place : Path) :
    (opener.after s place).unlogged = (opener.after t place).unlogged := by
  unfold after
  split
  · exact h
  · exact Session.afterReport_of_unlogged h place

end Opener

namespace Runner

variable {s t : Session}

theorem found_of_unlogged (runner : Runner) (h : s.unlogged = t.unlogged) (path : Text) :
    runner.found s path = runner.found t path := by
  simp only [found, Session.disk_of_unlogged h, Session.limits_of_unlogged h,
    Opener.answer_of_unlogged _ h]

theorem next_of_unlogged (runner : Runner) (h : s.unlogged = t.unlogged) (path : Text) :
    runner.next s path = runner.next t path := by
  simp only [next, Session.disk_of_unlogged h, Session.limits_of_unlogged h,
    Session.reported_of_unlogged h,
    runner.found_of_unlogged h]

theorem visited_of_unlogged (runner : Runner) (h : s.unlogged = t.unlogged) (path : Text) :
    (runner.visited s path).unlogged = (runner.visited t path).unlogged := by
  unfold visited
  rw [Session.disk_of_unlogged h, Session.limits_of_unlogged h]
  split
  · exact Opener.after_of_unlogged _ h _
  · exact h

end Runner

namespace History

/-- The same runner in the same session, but for what has been logged. -/
structure Agrees (history other : History) : Prop where
  runner : history.runner = other.runner
  session : history.session.unlogged = other.session.unlogged

theorem Agrees.refl (history : History) : history.Agrees history := ⟨rfl, rfl⟩

variable {history other : History}

theorem Agrees.meet (agrees : history.Agrees other) {visit visit' : Visit}
    (disk : visit.disk = visit'.disk) (git : visit.git = visit'.git) :
    (history.meet visit).unlogged = (other.meet visit').unlogged := by
  have same := agrees.session
  unfold Session.unlogged Session.withLog at same ⊢
  simp only [Session.mk.injEq] at same
  simp only [History.meet, disk, git, same]

theorem Agrees.serve (agrees : history.Agrees other) {visit visit' : Visit}
    (alike : visit.Alike visit') : (history.serve visit).Agrees (other.serve visit') := by
  obtain ⟨log, served⟩ := history.serve_eq visit
  obtain ⟨log', served'⟩ := other.serve_eq visit'
  have met := agrees.meet alike.disk alike.git
  rw [served, served', agrees.runner, alike.path]
  constructor
  · exact Runner.next_of_unlogged _ met _
  · rw [Session.unlogged_withLog, Session.unlogged_withLog]
    exact Runner.visited_of_unlogged _ met _

theorem Agrees.serveAll (agrees : history.Agrees other) {visits others : List Visit}
    (alike : List.Forall₂ Visit.Alike visits others) :
    (history.serveAll visits).Agrees (other.serveAll others) := by
  induction alike generalizing history other with
  | nil => exact agrees
  | cons first _ ih => exact ih (agrees.serve first)

theorem Agrees.answer (agrees : history.Agrees other) (visit : Visit) :
    history.answer visit = other.answer visit := by
  rw [answer_eq, answer_eq, agrees.runner]
  unfold Runner.answer
  rw [Runner.found_of_unlogged _ (agrees.meet rfl rfl)]

theorem Agrees.report (agrees : history.Agrees other) (visit : Visit) :
    history.report visit = other.report visit := by
  have answered := agrees.answer visit
  rw [answer_eq, answer_eq] at answered
  have met : (history.meet visit).unlogged = (other.meet visit).unlogged := agrees.meet rfl rfl
  rw [report_eq, report_eq, Runner.reported, Runner.reported, answered,
    Session.disk_of_unlogged met, Session.limits_of_unlogged met]

/-- A request has the same answer after requests that say different things in place of commits
and directories of build data. -/
theorem answers_isolated (history : History) {visits others : List Visit}
    (alike : List.Forall₂ Visit.Alike visits others) (visit : Visit) :
    (history.serveAll visits).answer visit = (history.serveAll others).answer visit ∧
      (history.serveAll visits).report visit = (history.serveAll others).report visit := by
  have agrees := (Agrees.refl history).serveAll alike
  exact ⟨agrees.answer visit, agrees.report visit⟩

def overridingVisit : Visit :=
  { visitTo "a" "c1" with request := { path := "/a", commit := "d", buildDataDir := "data" } }

theorem answers_isolated_overriding :
    (begun.serveAll [overridingVisit]).answer (visitTo "a" "c2") =
        (begun.serveAll [visitTo "a" "c1"]).answer (visitTo "a" "c2") ∧
      (begun.serveAll [overridingVisit]).report (visitTo "a" "c2") =
        (begun.serveAll [visitTo "a" "c1"]).report (visitTo "a" "c2") := by
  have alike : overridingVisit.Alike (visitTo "a" "c1") := ⟨rfl, rfl, rfl⟩
  exact answers_isolated begun (.cons alike .nil) (visitTo "a" "c2")

end History
end IndexCoverage
