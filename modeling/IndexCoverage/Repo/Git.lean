import IndexCoverage.Disk.Path
import IndexCoverage.Failure

/-! The questions that are put to git, and its answers. What git answers is a
value: it may depend on the directory and on every question asked before. -/

namespace IndexCoverage

namespace Git

inductive Query where
  | topLevel
  | head
  | origin
  deriving DecidableEq

def Query.command : Query → List Text
  | topLevel => ["git", "rev-parse", "--show-toplevel"]
  | head => ["git", "rev-parse", "HEAD"]
  | origin => ["git", "config", "--get", "remote.origin.url"]

inductive Reply where
  | printed (text : Text)
  | exit (status : Int)
  /-- There is no git. -/
  | missing
  deriving DecidableEq

def Reply.result (query : Query) : Reply → Except CommandError Text
  | printed text => .ok text
  | exit status => .error (.exit query.command status)
  | missing => .error (.missing "git")

structure Call where
  query : Query
  place : Path
  deriving DecidableEq

end Git

abbrev Git := List Git.Call → Git.Call → Git.Reply

namespace Git

/-- The reply with a number; the last one is given again and again. -/
def nth (replies : List Reply) (n : Nat) : Reply :=
  (replies[n]? <|> replies.getLast?).getD .missing

def scripted (replies : Query → List Reply) : Git := fun before call =>
  nth (replies call.query) (before.countP fun earlier => earlier.query = call.query)

end Git
end IndexCoverage
