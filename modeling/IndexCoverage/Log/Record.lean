import IndexCoverage.Text.CodePoint

/-! Log records, and computations that write them. A record names the stage of
the work it comes from; records are kept in the order in which they are made. -/

namespace IndexCoverage

inductive Level where
  | debug
  | info
  | warning
  | error
  | critical
  deriving DecidableEq

namespace Level

def name : Level → Text
  | debug => "DEBUG"
  | info => "INFO"
  | warning => "WARNING"
  | error => "ERROR"
  | critical => "CRITICAL"

def rank : Level → Nat
  | debug => 10
  | info => 20
  | warning => 30
  | error => 40
  | critical => 50

end Level

structure Record where
  stage : Text
  level : Level
  message : Text
  deriving DecidableEq

abbrev Log := List Record

/-- A computation that can fail with an `ε`; its records stay when it does. -/
abbrev Logged (ε : Type) := ExceptT ε (StateM Log)

namespace Logged

def note {ε : Type} (stage : Text) (level : Level) (message : Text) : Logged ε Unit :=
  modify fun log => log ++ [⟨stage, level, message⟩]

def ofExcept {ε α : Type} (result : Except ε α) : Logged ε α := liftM (m := Except ε) result

def mapError {ε δ α : Type} (cause : ε → δ) (action : Logged ε α) : Logged δ α :=
  ExceptT.mk (do
    match ← action.run with
    | .ok value => pure (.ok value)
    | .error failure => pure (.error (cause failure)))

end Logged
end IndexCoverage
