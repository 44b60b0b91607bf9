import IndexCoverage.Log.Record

/-! What a computation that writes records comes to, and what it leaves in the log. -/

namespace IndexCoverage

variable {ε δ α β : Type}

theorem eq_of_eq_ok {result : Except ε α} {value other : α} (h : result = .ok value)
    (again : result = .ok other) : value = other :=
  Except.ok.inj (h.symm.trans again)

theorem bind_eq_ok_iff {result : Except ε α} {next : α → Except ε β} {last : β} :
    result.bind next = .ok last ↔ ∃ value, result = .ok value ∧ next value = .ok last := by
  cases result <;> simp [Except.bind]

theorem do_eq_ok_iff {result : Except ε α} {next : α → Except ε β} {last : β} :
    result >>= next = .ok last ↔ ∃ value, result = .ok value ∧ next value = .ok last :=
  bind_eq_ok_iff

theorem pure_eq_ok_iff {value last : α} : (pure value : Except ε α) = .ok last ↔ value = last :=
  Iff.of_eq (Except.ok.injEq ..)

theorem map_eq_ok_iff {result : Except ε α} {make : α → β} {last : β} :
    result.map make = .ok last ↔ ∃ value, result = .ok value ∧ make value = last := by
  cases result <;> simp [Except.map]

theorem mapError_ok (cause : ε → δ) (value : α) :
    (Except.ok value).mapError cause = .ok value := rfl

theorem mapError_error (cause : ε → δ) (e : ε) :
    (Except.error e : Except ε α).mapError cause = .error (cause e) := rfl

theorem mapError_eq_ok_iff {result : Except ε α} {cause : ε → δ} {value : α} :
    result.mapError cause = .ok value ↔ result = .ok value := by
  cases result with
  | error e => exact iff_of_false nofun nofun
  | ok found => rw [mapError_ok, Except.ok.injEq, Except.ok.injEq]

theorem toOption_eq_some_iff {result : Except ε α} {value : α} :
    result.toOption = some value ↔ result = .ok value := by
  cases result <;> simp [Except.toOption]

namespace Logged

def outcome (action : Logged ε α) (log : Log) : Except ε α := (action.run.run log).1

def logAfter (action : Logged ε α) (log : Log) : Log := (action.run.run log).2

@[simp] theorem outcome_pure (value : α) (log : Log) :
    outcome (pure value : Logged ε α) log = .ok value := rfl

@[simp] theorem outcome_throw (failure : ε) (log : Log) :
    outcome (throw failure : Logged ε α) log = .error failure := rfl

@[simp] theorem outcome_note_bind (stage : Text) (level : Level) (message : Text)
    (next : Unit → Logged ε α) (log : Log) :
    outcome (note stage level message >>= next) log =
      outcome (next ()) (log ++ [⟨stage, level, message⟩]) := rfl

@[simp] theorem ofExcept_ok_bind (value : α) (next : α → Logged ε β) :
    ofExcept (.ok value) >>= next = next value := rfl

@[simp] theorem outcome_ofExcept (result : Except ε α) (log : Log) :
    outcome (ofExcept result) log = result := by cases result <;> rfl

@[simp] theorem outcome_ofExcept_bind (result : Except ε α) (next : α → Logged ε β) (log : Log) :
    outcome (ofExcept result >>= next) log = result.bind fun value => outcome (next value) log := by
  cases result <;> rfl

theorem outcome_bind (action : Logged ε α) (next : α → Logged ε β) (log : Log) :
    outcome (action >>= next) log =
      (outcome action log).bind fun value => outcome (next value) (logAfter action log) := by
  change (StateT.run (ExceptT.run action >>= ExceptT.bindCont next) log).1 = _
  rw [StateT.run_bind]
  unfold outcome logAfter
  generalize (ExceptT.run action).run log = result
  obtain ⟨result | value, log'⟩ := result <;> rfl

theorem logAfter_bind (action : Logged ε α) (next : α → Logged ε β) (log : Log) :
    logAfter (action >>= next) log =
      match outcome action log with
      | .ok value => logAfter (next value) (logAfter action log)
      | .error _ => logAfter action log := by
  change (StateT.run (ExceptT.run action >>= ExceptT.bindCont next) log).2 = _
  rw [StateT.run_bind]
  unfold outcome logAfter
  generalize (ExceptT.run action).run log = result
  obtain ⟨result | value, log'⟩ := result <;> rfl

theorem outcome_forIn (items : List α) (body : α → PUnit → Logged ε (ForInStep PUnit))
    (goesOn : ∀ item log, outcome (body item ⟨⟩) log = .ok (.yield ⟨⟩)) (log : Log) :
    outcome (forIn items ⟨⟩ body) log = .ok ⟨⟩ := by
  induction items generalizing log with
  | nil => rfl
  | cons item rest ih =>
    rw [List.forIn_cons, outcome_bind, goesOn]
    exact ih _

end Logged
end IndexCoverage
