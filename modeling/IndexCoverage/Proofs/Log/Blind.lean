import IndexCoverage.Inventory
import IndexCoverage.Proofs.Log.Outcome

/-! Computations that write records and never look at what is in the log before. What they
come to is the same whatever has been logged; taking an inventory is one of them. -/

namespace IndexCoverage

variable {ε α β : Type}

namespace Logged

def Blind (action : Logged ε α) : Prop := ∀ log other, outcome action log = outcome action other

theorem blind_pure (value : α) : Blind (pure value : Logged ε α) := fun _ _ => rfl

theorem blind_throw (failure : ε) : Blind (throw failure : Logged ε α) := fun _ _ => rfl

theorem blind_note (stage : Text) (level : Level) (message : Text) :
    Blind (note stage level message : Logged ε Unit) := fun _ _ => rfl

theorem blind_ofExcept (result : Except ε α) : Blind (ofExcept result) := by
  intro log other
  rw [outcome_ofExcept, outcome_ofExcept]

theorem Blind.bind {action : Logged ε α} {next : α → Logged ε β} (first : Blind action)
    (second : ∀ value, Blind (next value)) : Blind (action >>= next) := by
  intro log other
  rw [outcome_bind, outcome_bind, first log other]
  congr 1
  funext value
  exact second value _ _

theorem blind_forIn {γ : Type} (items : List γ) (start : β)
    (body : γ → β → Logged ε (ForInStep β)) (h : ∀ item state, Blind (body item state)) :
    Blind (forIn items start body) := by
  induction items generalizing start with
  | nil =>
    rw [List.forIn_nil]
    exact blind_pure start
  | cons item rest ih =>
    rw [List.forIn_cons]
    refine (h item start).bind fun step => ?_
    cases step with
    | done state => exact blind_pure state
    | yield state => exact ih state

end Logged

theorem Source.blind_measure (source : Text) (input : Bytes) :
    Logged.Blind (measure source input : Logged ε Nat) := by
  unfold measure
  refine Logged.Blind.bind (Logged.blind_forIn _ _ _ fun item state => ?_) fun _ =>
    Logged.blind_pure _
  exact (Logged.blind_note _ _ _).bind fun _ => Logged.blind_pure _

namespace Inventory

theorem blind_readFile (disk : Disk) (root names : List Text) :
    Logged.Blind (readFile disk root names) := by
  unfold readFile
  dsimp only
  cases Source.languageOf? (shownPath names) with
  | none => exact Logged.blind_pure none
  | some language =>
    cases disk.read (Path.ofPlace (root ++ names)) with
    | ok bytes =>
      exact (Source.blind_measure _ bytes).bind fun _ => Logged.blind_pure _
    | error e => cases e <;> exact Logged.blind_throw _

theorem blind_readFiles (disk : Disk) (root : List Text) (stops : List Stop) :
    Logged.Blind (readFiles disk root stops) := by
  induction stops with
  | nil => exact Logged.blind_pure []
  | cons stop rest ih =>
    obtain ⟨names, tooDeep⟩ := stop
    cases tooDeep with
    | true => exact Logged.blind_throw _
    | false =>
      rw [readFiles]
      exact (blind_readFile disk root names).bind fun _ => ih.bind fun _ => Logged.blind_pure _

theorem blind_build (disk : Disk) (depth : Nat) (asked : Text) :
    Logged.Blind (build disk depth asked) := by
  unfold build
  refine (Logged.blind_ofExcept _).bind fun root => (Logged.blind_ofExcept _).bind fun there => ?_
  cases there with
  | false => exact Logged.blind_throw _
  | true =>
    refine (Logged.blind_ofExcept _).bind fun directory => ?_
    cases directory with
    | false => exact Logged.blind_throw _
    | true =>
      refine (blind_readFiles disk _ _).bind fun files => ?_
      exact (Logged.blind_note _ _ _).bind fun _ => Logged.blind_pure files

end Inventory
end IndexCoverage
