import IndexCoverage.Proofs.Log.Outcome
import IndexCoverage.Session

/-! Actions in a session, each by what it comes to and the session that it leaves. Nothing that
an action does depends on what has been logged before, and reading the disk, asking git and
logging leave the disk as it is. -/

namespace IndexCoverage

variable {α β : Type}

namespace Session

def withLog (s : Session) (log : Log) : Session := { s with log }

def withCall (s : Session) (call : Git.Call) : Session := { s with calls := s.calls ++ [call] }

@[simp] theorem git_withCall (s : Session) (call : Git.Call) : (s.withCall call).git = s.git := rfl

@[simp] theorem calls_withCall (s : Session) (call : Git.Call) :
    (s.withCall call).calls = s.calls ++ [call] := rfl

@[simp] theorem limits_withLog (s : Session) (log : Log) :
    (s.withLog log).limits = s.limits := rfl

@[simp] theorem disk_withLog (s : Session) (log : Log) : (s.withLog log).disk = s.disk := rfl

def unlogged (s : Session) : Session := s.withLog []

@[simp] theorem unlogged_withLog (s : Session) (log : Log) :
    (s.withLog log).unlogged = s.unlogged := rfl

theorem disk_of_unlogged {s t : Session} (h : s.unlogged = t.unlogged) : s.disk = t.disk := by
  simpa only [unlogged, withLog] using congrArg (·.disk) h

theorem limits_of_unlogged {s t : Session} (h : s.unlogged = t.unlogged) :
    s.limits = t.limits := by
  simpa only [unlogged, withLog] using congrArg (·.limits) h

theorem git_of_unlogged {s t : Session} (h : s.unlogged = t.unlogged) : s.git = t.git := by
  simpa only [unlogged, withLog] using congrArg (·.git) h

theorem calls_of_unlogged {s t : Session} (h : s.unlogged = t.unlogged) : s.calls = t.calls := by
  simpa only [unlogged, withLog] using congrArg (·.calls) h

/-- A computation that leaves the disk and the limits as they are, and for which the log does not
matter. -/
structure Calm (m : StateM Session α) : Prop where
  disk (s : Session) : (m.run s).2.disk = s.disk
  limits (s : Session) : (m.run s).2.limits = s.limits
  value {s t : Session} (h : s.unlogged = t.unlogged) : (m.run s).1 = (m.run t).1
  rest {s t : Session} (h : s.unlogged = t.unlogged) : (m.run s).2.unlogged = (m.run t).2.unlogged

theorem calm_pure (value : α) : Calm (pure value) :=
  ⟨fun _ => rfl, fun _ => rfl, fun _ => rfl, id⟩

theorem Calm.bind {m : StateM Session α} {next : α → StateM Session β} (first : Calm m)
    (second : ∀ value, Calm (next value)) : Calm (m >>= next) where
  disk s := by
    rw [StateT.run_bind]
    exact ((second _).disk _).trans (first.disk s)
  limits s := by
    rw [StateT.run_bind]
    exact ((second _).limits _).trans (first.limits s)
  value {s t} h := by
    change ((next (m.run s).1).run (m.run s).2).1 = ((next (m.run t).1).run (m.run t).2).1
    rw [first.value h]
    exact (second _).value (first.rest h)
  rest {s t} h := by
    change ((next (m.run s).1).run (m.run s).2).2.unlogged =
      ((next (m.run t).1).run (m.run t).2).2.unlogged
    rw [first.value h]
    exact (second _).rest (first.rest h)

end Session

namespace Action

def Calm (action : Action α) : Prop := Session.Calm action.run

theorem calm_pure (value : α) : Calm (pure value) := Session.calm_pure _

theorem calm_throw (failure : Failure) : Calm (throw failure : Action α) := Session.calm_pure _

theorem Calm.bind {action : Action α} {next : α → Action β} (first : Calm action)
    (second : ∀ value, Calm (next value)) : Calm (action >>= next) := by
  change Session.Calm (action.run >>= ExceptT.bindCont next)
  refine Session.Calm.bind first fun result => ?_
  cases result with
  | ok value => exact second value
  | error failure => exact Session.calm_pure _

theorem run_bind (action : Action α) (next : α → Action β) (s : Session) :
    (action >>= next).run.run s =
      match action.run.run s with
      | (.ok value, t) => (next value).run.run t
      | (.error e, t) => (.error e, t) := by
  change StateT.run (action.run >>= ExceptT.bindCont next) s = _
  rw [StateT.run_bind]
  generalize action.run.run s = result
  obtain ⟨failure | value, t⟩ := result <;> rfl

theorem run_get_bind (next : Session → Action α) (s : Session) :
    ((get >>= next : Action α)).run.run s = (next s).run.run s := rfl

theorem calm_get_bind {next : Session → Action α} (each : ∀ s, Calm (next s))
    (same : ∀ s t : Session, s.unlogged = t.unlogged → next s = next t) :
    Calm (get >>= next : Action α) where
  disk s := (each s).disk s
  limits s := (each s).limits s
  value {s t} h := by
    change ((next s).run.run s).1 = ((next t).run.run t).1
    rw [same s t h]
    exact (each t).value h
  rest {s t} h := by
    change ((next s).run.run s).2.unlogged = ((next t).run.run t).2.unlogged
    rw [same s t h]
    exact (each t).rest h

theorem run_ofExcept (result : Except Failure α) (s : Session) :
    (ofExcept result).run.run s = (result, s) := by cases result <;> rfl

theorem run_ofPath (find : Disk → Except PathError α) (s : Session) :
    (ofPath find).run.run s = ((find s.disk).mapError .path, s) := by
  unfold ofPath
  rw [run_get_bind]
  cases find s.disk <;> rfl

theorem calm_ofPath (find : Disk → Except PathError α) : Calm (ofPath find) where
  disk s := by rw [run_ofPath]
  limits s := by rw [run_ofPath]
  value {s t} h := by rw [run_ofPath, run_ofPath, Session.disk_of_unlogged h]
  rest h := by rwa [run_ofPath, run_ofPath]

theorem run_ofLogged (action : Logged Failure α) (s : Session) :
    (ofLogged action).run.run s =
      (Logged.outcome action s.log, s.withLog (Logged.logAfter action s.log)) := rfl

theorem run_note (stage : Text) (level : Level) (message : Text) (s : Session) :
    (note stage level message).run.run s =
      (.ok (), s.withLog (s.log ++ [⟨stage, level, message⟩])) := rfl

theorem calm_note (stage : Text) (level : Level) (message : Text) :
    Calm (note stage level message) := ⟨fun _ => rfl, fun _ => rfl, fun _ => rfl, id⟩

theorem run_ask (place : Path) (query : Git.Query) (s : Session) :
    (ask place query).run.run s =
      (.ok ((s.git s.calls ⟨query, place⟩).result query), s.withCall ⟨query, place⟩) := rfl

theorem calm_ask (place : Path) (query : Git.Query) : Calm (ask place query) where
  disk _ := rfl
  limits _ := rfl
  value {s t} h := by
    rw [run_ask, run_ask, Session.git_of_unlogged h, Session.calls_of_unlogged h]
  rest {s t} h := by
    change s.unlogged.withCall ⟨query, place⟩ = t.unlogged.withCall ⟨query, place⟩
    rw [h]

end Action

end IndexCoverage
