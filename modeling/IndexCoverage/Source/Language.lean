import IndexCoverage.Text.CodePoint

/-! The language of a file by the suffix of its name. The suffix starts at the
last dot of the last component; dots that lead the component start none. -/

namespace IndexCoverage.Source

def languages : List (Text × Text) := [
  (".go", "Go"), (".java", "Java"), (".py", "Python"), (".rb", "Ruby"), (".cpp", "C++"),
  (".ts", "TypeScript"), (".cs", "C#"), (".js", "JavaScript"), (".php", "PHP"),
  (".m", "Objective-C")]

def baseName (path : Text) : Text := (Text.cutLast '/' path).2

def suffix (path : Text) : Text :=
  let name := (baseName path).dropWhile (· = .char '.')
  match Text.cutLast '.' name with
  | (some _, after) => .char '.' :: after
  | (none, _) => []

def languageOf? (path : Text) : Option Text := languages.lookup (suffix path)

end IndexCoverage.Source
