import IndexCoverage.CommandLine.Program
import IndexCoverage.Proofs.CommandLine.Reading
import IndexCoverage.Proofs.Disk.Plain
import IndexCoverage.Proofs.Runner.Steps
import IndexCoverage.Proofs.Service.Sending

/-! The program and the service side by side, when they are asked for one thing in one world. Both
start one run and tell what it comes to, each in its own way. They tell the same if it is a report,
a missing file or a failure of a stage, as long as the text has an encoding: the program writes
any text, and the service sends none without. The program handles no other failure, and the service
answers those that a path without a place or a document that nests too far brings about. -/

namespace IndexCoverage

namespace CommandLine

def conclude (words : Wording) : Except Failure Report → Outcome
  | .ok report => { out := Json.write Json.indented 0 report.document ++ ("\n" : Text) }
  | .error e => failed words e

variable {path : Text} {commit? buildDataDir? : Option Text}

theorem run_perform_coverage (request : Request) (s : Session) :
    ((perform (.coverage request)).run s).1 =
      conclude ((Runner.run {} request).run s).2.words ((Runner.run {} request).run s).1.1 := by
  unfold perform
  rw [StateT.run_bind]
  generalize (Runner.run {} request).run s = ran
  obtain ⟨⟨report | e, runner⟩, t⟩ := ran <;> rfl

theorem run_main_asking (value : IsValue path) (commitValue : ∀ value ∈ commit?, IsValue value)
    (buildDataDirValue : ∀ value ∈ buildDataDir?, IsValue value) (s : Session) :
    ((main (asking path commit? buildDataDir?)).run s).1.2 =
      conclude ((Runner.run {} (.given path commit? buildDataDir?)).run s).2.words
        ((Runner.run {} (.given path commit? buildDataDir?)).run s).1.1 := by
  rw [main, read_asking value commitValue buildDataDirValue]
  exact run_perform_coverage _ s

end CommandLine

namespace Service

def reply (words : Wording) : Except Failure Report → Answer
  | .ok report => send 200 (Response.ofReport report).document
  | .error e => failed words e

/-- The fields of a body ask for a path, with a commit and a directory of build data if they are
given; what is not given is missing or null. -/
structure Asks (fields : List (Text × Json.Value)) (path : Text)
    (commit? buildDataDir? : Option Text) : Prop where
  path : Json.get? "path" fields = some (.str path)
  commit : (Json.get? "commit_id" fields).filter (· ≠ .null) = commit?.map .str
  buildDataDir : (Json.get? "build_data_dir" fields).filter (· ≠ .null) = buildDataDir?.map .str

theorem optionalText_of_filter {fields : List (Text × Json.Value)} {name : Text}
    {text? : Option Text}
    (given : (Json.get? name fields).filter (· ≠ .null) = text?.map .str) :
    optionalText fields name = .ok (text?.getD []) := by
  unfold optionalText
  cases text? with
  | none =>
    cases found : Json.get? name fields with
    | none => rfl
    | some value =>
      obtain rfl : value = .null := by simpa [found, Option.filter] using given
      rfl
  | some text =>
    obtain ⟨found, -⟩ := Option.filter_eq_some_iff.mp given
    rw [found]
    rfl

variable {fields : List (Text × Json.Value)} {path : Text} {commit? buildDataDir? : Option Text}

theorem requestOf_asks (asks : Asks fields path commit? buildDataDir?) :
    requestOf (.obj fields) = .ok (.given path commit? buildDataDir?) := by
  have required : requiredText fields "path" = .ok path := by
    rw [requiredText, asks.path, optionalText, asks.path]
  rw [requestOf, required, optionalText_of_filter asks.commit,
    optionalText_of_filter asks.buildDataDir]
  rfl

theorem run_compute_asks (asks : Asks fields path commit? buildDataDir?) (s : Session) :
    ((({} : Service).compute (.obj fields)).run s).1.1 =
      reply ((Runner.run {} (.given path commit? buildDataDir?)).run s).2.words
        ((Runner.run {} (.given path commit? buildDataDir?)).run s).1.1 := by
  unfold compute
  rw [requestOf_asks asks]
  dsimp only [Option.getD]
  rw [StateT.run_bind]
  generalize (Runner.run {} (.given path commit? buildDataDir?)).run s = ran
  obtain ⟨⟨report | e, runner⟩, t⟩ := ran <;> rfl

theorem run_coverage_of_read (service : Service) {body : Bytes} {document : Json.Value}
    {s : Session} (read : Json.readBytes s.limits.body body = .ok document) :
    (service.coverage body).run s = (service.compute document).run s := by
  have blank : Json.readBytes s.limits.body [] = .error .malformed := rfl
  have nonempty : ¬body.isEmpty = true := by
    intro empty
    rw [List.isEmpty_iff.mp empty, blank] at read
    cases read
  simp only [coverage, if_neg nonempty, StateT.run_bind, StateT.run_get, pure_bind, read]

theorem run_answer_coverage {body : Bytes} {s : Session}
    (read : Json.readBytes s.limits.body body = .ok (.obj fields))
    (asks : Asks fields path commit? buildDataDir?) :
    ((({} : Service).answer ⟨"POST", "/coverage", body⟩).run s).1.1 =
      reply ((Runner.run {} (.given path commit? buildDataDir?)).run s).2.words
        ((Runner.run {} (.given path commit? buildDataDir?)).run s).1.1 := by
  have served : ((({} : Service).answer ⟨"POST", "/coverage", body⟩).run s).1.1 =
      ((({} : Service).coverage body).run s).1.1 := rfl
  rw [served, run_coverage_of_read {} read]
  exact run_compute_asks asks s

def Answer.status : Answer → Nat
  | document status _ => status
  | invalid _ => 422
  | plain status _ => status

theorem send_single (status : Nat) (key : Text) (value : Json.Value)
    (plain : key.isEncodable = true) :
    send status (.obj [(key, value)]) =
      if canSend value then .document status (.obj [(key, value)]) else broken := by
  rw [send, canSend_obj_single key value plain]

theorem detail_eq (status : Nat) (message : Text) :
    detail status message =
      if message.isEncodable then .document status (.obj [("detail", .str message)])
      else broken := by
  rw [detail, send_single _ _ _ (by decide), canSend_str]

end Service

section FrontEnds

/-- The program and the service tell the same of what a run comes to: a report, as one document; a
missing file; or a failure that the program has a way to end with. -/
structure Agree (result : Except Failure Report) (outcome : CommandLine.Outcome)
    (answer : Service.Answer) : Prop where
  done : outcome.ending = .done ↔ answer.status = 200
  printed : answer.status = 200 → ∃ languages : Json.Value,
    answer = .document 200 (.obj [("languages", languages)]) ∧
      outcome.out = Json.write Json.indented 0 languages ++ ("\n" : Text)
  exits : outcome.ending = .exit 1 ↔ answer.status = 404 ∨ answer.status = 400
  missing : answer.status = 404 ↔ ∃ e, result = .error e ∧ e.kind = .missing
  notFound : answer.status = 404 → ∃ message : Text,
    answer = .document 404 (.obj [("detail", .str message)]) ∧
      outcome.err = Text.join [message, "\n"]
  refused : answer.status = 400 → ∃ message : Text,
    answer = .document 400 (.obj [("detail", .str message)]) ∧
      outcome.err = Text.join ["graphcov coverage failed: ", message, "\n"]

/-- What a run comes to can be told by both front ends, or is told by neither. -/
def Tellable (words : Wording) : Except Failure Report → Prop
  | .ok report => report.isPlain = true
  | .error e =>
    match e.kind with
    | .missing => (e.message words).isEncodable = true
    | .stage => (e.message words).isEncodable = true
    | .runtime => (e.message words).isEncodable = false
    | .other => True

variable {words : Wording}

theorem not_agree_broken {result : Except Failure Report} {outcome : CommandLine.Outcome}
    (told : outcome.ending = .done ∨ outcome.ending = .exit 1) :
    ¬Agree result outcome Service.broken := by
  intro agree
  rcases told with done | exits
  · exact absurd (agree.done.mp done) (by decide)
  · exact absurd (agree.exits.mp exits) (by decide)

theorem agree_ok_iff {report : Report}
    (sent : Service.canSend report.document = report.isPlain) :
    Agree (.ok report) (CommandLine.conclude words (.ok report))
        (Service.reply words (.ok report)) ↔ Tellable words (.ok report) := by
  rw [Service.reply, Service.document_ofReport, Service.send_single _ _ _ (by decide), sent,
    Tellable]
  constructor
  · intro agree
    by_contra lone
    rw [if_neg lone] at agree
    exact not_agree_broken (.inl rfl) agree
  · intro plain
    rw [if_pos plain]
    exact {
      done := iff_of_true rfl rfl
      printed := fun _ => ⟨_, rfl, rfl⟩
      exits := iff_of_false nofun (by simp [Service.Answer.status])
      missing := iff_of_false (by simp [Service.Answer.status]) nofun
      notFound := nofun
      refused := nofun }

theorem agree_failed_broken {e : Failure} (kind : e.kind ≠ .missing) :
    Agree (.error e) { ending := .failed e } Service.broken where
  done := iff_of_false nofun (by decide)
  printed := nofun
  exits := iff_of_false nofun (by decide)
  missing := iff_of_false (by decide) (by simp [kind])
  notFound := nofun
  refused := nofun

theorem agree_error_iff {e : Failure} :
    Agree (.error e) (CommandLine.conclude words (.error e)) (Service.reply words (.error e)) ↔
      Tellable words (.error e) := by
  rw [CommandLine.conclude, CommandLine.failed, Service.reply, Service.failed, Tellable]
  cases kind : e.kind with
  | missing =>
    dsimp only
    rw [Service.detail_eq]
    constructor
    · intro agree
      by_contra lone
      rw [if_neg lone] at agree
      exact not_agree_broken (.inr rfl) agree
    · intro plain
      rw [if_pos plain]
      exact {
        done := iff_of_false nofun (by simp [Service.Answer.status])
        printed := nofun
        exits := iff_of_true rfl (.inl rfl)
        missing := iff_of_true rfl ⟨e, rfl, kind⟩
        notFound := fun _ => ⟨_, rfl, rfl⟩
        refused := nofun }
  | stage =>
    dsimp only
    rw [Service.detail_eq]
    constructor
    · intro agree
      by_contra lone
      rw [if_neg lone] at agree
      exact not_agree_broken (.inr rfl) agree
    · intro plain
      rw [if_pos plain]
      exact {
        done := iff_of_false nofun (by simp [Service.Answer.status])
        printed := nofun
        exits := iff_of_true rfl (.inr rfl)
        missing := iff_of_false (by simp [Service.Answer.status]) (by simp [kind])
        notFound := nofun
        refused := fun _ => ⟨_, rfl, rfl⟩ }
  | runtime =>
    dsimp only
    rw [Service.detail_eq]
    constructor
    · intro agree
      by_contra plain
      rw [if_pos (by simpa using plain)] at agree
      exact absurd (agree.exits.mpr (.inr rfl)) nofun
    · intro lone
      rw [if_neg (by simp [lone])]
      exact agree_failed_broken (by simp [kind])
  | other =>
    dsimp only
    rw [iff_true]
    exact agree_failed_broken (by simp [kind])

/-- The front ends agree on one request exactly if what the run comes to can be told by both, or
by neither. -/
theorem frontEnds_agree_iff {path : Text} {commit? buildDataDir? : Option Text} {body : Bytes}
    {fields : List (Text × Json.Value)} (value : CommandLine.IsValue path)
    (commitValue : ∀ value ∈ commit?, CommandLine.IsValue value)
    (buildDataDirValue : ∀ value ∈ buildDataDir?, CommandLine.IsValue value)
    {s : Session}
    (read : Json.readBytes s.limits.body body = .ok (.obj fields))
    (asks : Service.Asks fields path commit? buildDataDir?) :
    Agree ((Runner.run {} (.given path commit? buildDataDir?)).run s).1.1
        ((CommandLine.main (CommandLine.asking path commit? buildDataDir?)).run s).1.2
        ((({} : Service).answer ⟨"POST", "/coverage", body⟩).run s).1.1 ↔
      Tellable ((Runner.run {} (.given path commit? buildDataDir?)).run s).2.words
        ((Runner.run {} (.given path commit? buildDataDir?)).run s).1.1 := by
  rw [CommandLine.run_main_asking value commitValue buildDataDirValue,
    Service.run_answer_coverage read asks]
  cases ran : ((Runner.run {} (.given path commit? buildDataDir?)).run s).1.1 with
  | ok report => exact agree_ok_iff (Service.canSend_of_run ran)
  | error e => exact agree_error_iff

end FrontEnds

section Bare

def bareSession : Session where
  disk := { top := .dir [], workDir := [], home := "/" }
  git := fun _ _ => .missing
  words := Fault.inWords

def goneBody : Bytes :=
  [123, 34, 112, 97, 116, 104, 34, 58, 34, 47, 120, 34, 44, 34, 99, 111, 109, 109, 105, 116, 95,
   105, 100, 34, 58, 34, 99, 34, 44, 34, 98, 117, 105, 108, 100, 95, 100, 97, 116, 97, 95, 100,
   105, 114, 34, 58, 110, 117, 108, 108, 125]

theorem read_goneBody : Json.readBytes (Limits.body {}) goneBody =
    .ok (.obj [("path", .str "/x"), ("commit_id", .str "c"), ("build_data_dir", .null)]) := by
  decide +kernel

def homelessBody : Bytes :=
  [123, 34, 112, 97, 116, 104, 34, 58, 34, 126, 110, 111, 115, 117, 99, 104, 117, 115, 101, 114,
   34, 125]

theorem read_homelessBody :
    Json.readBytes (Limits.body {}) homelessBody = .ok (.obj [("path", .str "~nosuchuser")]) := by
  decide +kernel

theorem locate_bare : bareSession.disk.locate "/x" = .ok (Path.ofPlace ["x"]) := by
  have missing :
      bareSession.disk.follow false maxLinks (bareSession.disk.startOf (Path.ofPlace ["x"]))
        (Path.ofPlace ["x"]).parts = .error .notFound := Disk.follow_missing rfl rfl rfl rfl
  have noLink : bareSession.disk.linkAt? ((Path.ofPlace []).child "x") = none := by
    have accepted : refused? (Path.ofPlace ["x"]).text = none := rfl
    change bareSession.disk.linkAt? (Path.ofPlace ["x"]) = none
    rw [Disk.linkAt?, missing, accepted]
  have way : bareSession.disk.wayFrom Disk.maxLinkDepth [] (Path.ofPlace []) ["x"] =
      (.ok (Path.ofPlace ["x"]), []) := by
    simp only [Disk.wayFrom, noLink]
    rfl
  exact Disk.resolve_of_way rfl way

theorem run_bare : ((Runner.run {} (.given "/x" (some "c") none)).run bareSession).1.1 =
    .error (.noRepository "/x") := by
  have missing : bareSession.disk.find (Path.ofPlace ["x"]) =
      .error (.system ⟨.notFound, (Path.ofPlace ["x"]).text⟩) :=
    Disk.find_of_follow_error rfl (Disk.follow_missing rfl rfl rfl rfl)
  have refused : Runner.entry bareSession.disk bareSession.limits.settings "/x" =
      .error (.noRepository "/x") := by
    have there : bareSession.disk.exists? (Path.ofPlace ["x"]) = .ok false := by
      rw [Disk.exists?, Disk.holds, missing]
      rfl
    rw [Runner.entry, Runner.startIn, locate_bare]
    simp only [mapError_ok, Except.bind, there]
    rfl
  have context : (({} : Runner).context (.given "/x" (some "c") none)).run bareSession = _ :=
    Runner.run_context_of_refused {} refused
  rw [Runner.run, StateT.run_bind, context]
  rfl

/-- A path that leads nowhere is told alike. -/
theorem frontEnds_agree_gone :
    Agree ((Runner.run {} { path := "/x", commit := "c" }).run bareSession).1.1
      ((CommandLine.main ["coverage", "/x", "--commit", "c"]).run bareSession).1.2
      ((({} : Service).answer ⟨"POST", "/coverage", goneBody⟩).run bareSession).1.1 := by
  have asks : Service.Asks
      [("path", .str "/x"), ("commit_id", .str "c"), ("build_data_dir", .null)] "/x" (some "c")
      none := ⟨rfl, by decide, by decide⟩
  have set : ∀ value ∈ some ("c" : Text), CommandLine.IsValue value := by decide
  have unset : ∀ value ∈ (none : Option Text), CommandLine.IsValue value := by simp
  refine (frontEnds_agree_iff (by decide) set unset read_goneBody asks).mpr ?_
  rw [run_bare]
  rfl

/-- The home directory of no user: the service says what is wrong, and the program does not. -/
theorem frontEnds_disagree_homeless :
    CommandLine.IsValue "~nosuchuser" ∧
      Json.readBytes (Limits.body {}) homelessBody = .ok (.obj [("path", .str "~nosuchuser")]) ∧
      ((CommandLine.main ["coverage", "~nosuchuser"]).run bareSession).1.2 =
        { ending := .failed (.path .noHome) } ∧
      ((({} : Service).answer ⟨"POST", "/coverage", homelessBody⟩).run bareSession).1.1 =
        .document 400 (.obj [("detail", .str "Could not determine home directory.")]) := by
  have value : CommandLine.IsValue "~nosuchuser" := by decide
  have asks : Service.Asks [("path", .str "~nosuchuser")] "~nosuchuser" none none :=
    ⟨rfl, rfl, rfl⟩
  have homeless : ((Runner.run {} (.given "~nosuchuser" none none)).run bareSession).1.1 =
      .error (.path .noHome) := rfl
  have unset : ∀ value ∈ (none : Option Text), CommandLine.IsValue value := by simp
  refine ⟨value, read_homelessBody, ?_, ?_⟩
  · refine (CommandLine.run_main_asking value unset unset bareSession).trans ?_
    rw [homeless]
    rfl
  · rw [Service.run_answer_coverage read_homelessBody asks, homeless, Service.reply,
      Service.failed]
    exact (Service.detail_eq 400 _).trans (if_pos (by decide))

end Bare
end IndexCoverage
