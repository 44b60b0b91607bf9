import IndexCoverage.CommandLine.Word
import IndexCoverage.Runner

/-! What a command line asks for. Words are taken one by one, so that the first
that is wrong, or asks for help, decides; words that nobody takes are an error at
the end. -/

namespace IndexCoverage.CommandLine

inductive Stop where
  | help
  | usage
  deriving DecidableEq

inductive Command where
  | coverage (request : Request)
  | serve (host : Text) (port : Int)
  deriving DecidableEq

structure Arguments where
  verbose : Bool
  logFile : Option Text
  command : Command
  deriving DecidableEq

structure Options where
  verbose : Bool := false
  logFile : Option Text := none
  path : Text := "."
  commit : Text := []
  buildDataDir : Text := []
  host : Text := "127.0.0.1"
  port : Int := 8000

namespace Options

def set (options : Options) (flag : Flag) (value : Text) : Except Stop Options :=
  match flag with
  | .help => .error .help
  | .verbose => .ok { options with verbose := true }
  | .logFile => .ok { options with logFile := some value }
  | .commit => .ok { options with commit := value }
  | .buildDataDir => .ok { options with buildDataDir := value }
  | .host => .ok { options with host := value }
  | .port =>
    match Numeral.int 10 value with
    | .ok port => .ok { options with port }
    | .error _ => .error .usage

end Options

/-- The options in letters behind one dash, up to the first letter that is no
option, and whether there is such a letter. None of them takes a value, so a dash
or an equals sign is wrong. -/
def flagsOf? (table : Table) : Text → Option (List Flag × Bool)
  | [] => some ([], false)
  | letter :: rest =>
    if letter = dash ∨ letter = .char '=' then none
    else
      match table.lookup [dash, letter] with
      | none => some ([], true)
      | some flag => (flagsOf? table rest).map fun (flags, extra) => (flag :: flags, extra)

/-- How an option goes on: it is done, perhaps with letters that nobody took, or
its value is the next word. -/
inductive Taken where
  | done (options : Options) (extra : Bool)
  | awaits (flag : Flag)

def takeFlag (table : Table) (options : Options) (flag : Flag) :
    Attached → Except Stop Taken
  | .nothing =>
    if flag.takesValue then .ok (.awaits flag)
    else (options.set flag []).map (Taken.done · false)
  | .value text =>
    if flag.takesValue then (options.set flag text).map (Taken.done · false)
    else .error .usage
  | .letters text =>
    match flagsOf? table text with
    | none => .error .usage
    | some (flags, extra) => do
      let options ← (flag :: flags).foldlM (fun options flag => options.set flag []) options
      return .done options extra

/-- The place for a path among the words: free, or next in line after `--`, or
just filled, so that `--` may follow, or closed. -/
inductive Slot where
  | free
  | next
  | filled
  | closed
  deriving DecidableEq

def Slot.passed : Slot → Slot
  | free => free
  | _ => closed

/-- The options of a command from its words, and whether nobody took one of them.
`wanted` is the option whose value comes next. -/
def readCommand (table : Table) (wanted : Option Flag) (slot : Slot) (extra : Bool)
    (options : Options) : List (Text × Word) → Except Stop (Options × Bool)
  | [] => if wanted.isSome then .error .usage else .ok (options, extra)
  | (text, word) :: rest =>
    match wanted, word with
    | some flag, .plain => do
      readCommand table none slot extra (← options.set flag text) rest
    | some _, _ => .error .usage
    | none, .flag flag attached => do
      match ← takeFlag table options flag attached with
      | .done options left => readCommand table none slot.passed (extra || left) options rest
      | .awaits flag => readCommand table (some flag) slot.passed extra options rest
    | none, .unknown => readCommand table none slot.passed true options rest
    | none, .plain =>
      match slot with
      | .free => readCommand table none .filled extra { options with path := text } rest
      | .next => readCommand table none .closed extra { options with path := text } rest
      | _ => readCommand table none .closed true options rest
    | none, .dashes =>
      match slot with
      | .free => readCommand table none .next extra options rest
      | .filled => readCommand table none .closed extra options rest
      | _ => readCommand table none .closed true options rest

def coverageTable : Table :=
  ("--commit", .commit) :: ("--build-data-dir", .buildDataDir) :: commonTable

def serveTable : Table := ("--host", .host) :: ("--port", .port) :: commonTable

def topTable : Table := ("--log-file", .logFile) :: commonTable

def readNamed (name : Text) (extra : Bool) (options : Options) (words : List Text) :
    Except Stop Arguments := do
  let read (table : Table) (slot : Slot) : Except Stop Options :=
    match wordsOf table words with
    | none => .error .usage
    | some words => do
      let (options, extra) ← readCommand table none slot extra options words
      if extra then throw .usage else return options
  if name = "coverage" then
    let options ← read coverageTable .free
    let request := { path := options.path, commit := options.commit,
                     buildDataDir := options.buildDataDir }
    return ⟨options.verbose, options.logFile, .coverage request⟩
  else if name = "serve" then
    let options ← read serveTable .closed
    return ⟨options.verbose, options.logFile, .serve options.host options.port⟩
  else throw .usage

def readTop (wanted : Option Flag) (extra : Bool) (options : Options) :
    List (Text × Word) → Except Stop Arguments
  | [] => .error .usage
  | (text, word) :: rest =>
    match wanted, word with
    | some flag, .plain => do readTop none extra (← options.set flag text) rest
    | some _, _ => .error .usage
    | none, .flag flag attached => do
      match ← takeFlag topTable options flag attached with
      | .done options left => readTop none (extra || left) options rest
      | .awaits flag => readTop (some flag) extra options rest
    | none, .unknown => readTop none true options rest
    | none, .plain => readNamed text extra options (rest.map Prod.fst)
    | none, .dashes => .error .usage

def Arguments.read (args : List Text) : Except Stop Arguments :=
  match wordsOf topTable args with
  | none => .error .usage
  | some words => readTop none false {} words

end IndexCoverage.CommandLine
