import IndexCoverage.Text.CodePoint

/-! What analysis writes about one source unit: the definitions it found and the
references it found to definitions, of this unit or another. -/

namespace IndexCoverage

/-- What identifies a definition: its repository, the type and name of its unit, its path there. -/
structure DefKey where
  repo : Text
  unitType : Text
  unit : Text
  path : Text
  deriving DecidableEq

structure Definition where
  repo : Text
  unitType : Text
  unit : Text
  path : Text
  name : Text
  kind : Text
  file : Text
  start : Int
  stop : Int
  deriving DecidableEq

structure Reference where
  defRepo : Text
  defUnitType : Text
  defUnit : Text
  defPath : Text
  repo : Text
  unitType : Text
  unit : Text
  file : Text
  start : Int
  stop : Int
  deriving DecidableEq

structure Artifact where
  defs : List Definition
  refs : List Reference
  deriving DecidableEq

def Definition.key (d : Definition) : DefKey := ⟨d.repo, d.unitType, d.unit, d.path⟩

def Reference.key (r : Reference) : DefKey := ⟨r.defRepo, r.defUnitType, r.defUnit, r.defPath⟩

def Reference.pointTo (r : Reference) (key : DefKey) : Reference :=
  { r with defUnitType := key.unitType, defUnit := key.unit, defPath := key.path }

/-- A reference is valid if it names a repository, or if its key, repository aside, is known. -/
def Reference.isValid (known : List DefKey) (r : Reference) : Bool :=
  !r.defRepo.isEmpty || known.contains { r.key with repo := [] }

end IndexCoverage
