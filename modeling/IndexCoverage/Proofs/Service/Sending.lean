import IndexCoverage.Coverage.Document
import IndexCoverage.Proofs.Coverage.Scores
import IndexCoverage.Proofs.Runner.Steps
import IndexCoverage.Service

/-! Which documents can be sent. The scores of a report are finite and the names of its languages
are plain, so it is up to the names of the files that are not covered. -/

namespace IndexCoverage

namespace Binary64

theorem isSome_finite?_of_finite? {x y : Binary64} (h : x.finite? = some y) :
    y.finite?.isSome = true := by
  cases x with
  | finite negative units =>
    obtain rfl := Option.some.inj h
    rfl
  | infinite negative => cases h
  | nan => cases h

end Binary64

theorem finite_of_score {part all : Int} {x : Binary64} (h : score part all = .ok x) :
    x.finite?.isSome = true := by
  by_cases zero : all = 0
  · rw [zero, score_zero] at h
    obtain rfl := Except.ok.inj h
    rfl
  · rw [score_of_ne_zero zero, ratio] at h
    cases quotient : Binary64.quotient? part all with
    | none => simp [quotient] at h
    | some y =>
      rw [quotient] at h
      obtain rfl := Except.ok.inj h
      exact Binary64.isSome_finite?_of_finite? quotient

namespace Service

theorem document_ofCoverage (coverage : LanguageCoverage) :
    (LanguageModel.ofCoverage coverage).document = coverage.document := by
  rw [LanguageModel.document, LanguageCoverage.document]
  rfl

theorem document_ofReport (report : Report) :
    (Response.ofReport report).document = .obj [("languages", report.document)] := by
  rw [Response.document, Response.ofReport, Report.document, List.map_map]
  simp only [Function.comp_def, document_ofCoverage]

theorem canSend_str (s : Text) : canSend (.str s) = s.isEncodable := by
  rw [canSend, Text.isEncodable, List.not_any_eq_all_not]
  congr 1
  funext c
  cases c <;> rfl

theorem canSend_float (x : Binary64) : canSend (.float x) = x.finite?.isSome := by
  cases x <;> simp [canSend, Binary64.finite?]

theorem canSendItems_eq (items : List Json.Value) : canSendItems items = items.all canSend := by
  induction items with
  | nil => rw [canSendItems, List.all_nil]
  | cons item rest ih => rw [canSendItems, ih, List.all_cons]

theorem canSendFields_eq (fields : List (Text × Json.Value)) :
    canSendFields fields = fields.all fun field => field.1.isEncodable && canSend field.2 := by
  induction fields with
  | nil => rw [canSendFields, List.all_nil]
  | cons field rest ih =>
    obtain ⟨key, value⟩ := field
    rw [canSendFields, ih, List.all_cons, canSend_str]

theorem canSend_obj_single (key : Text) (value : Json.Value) (plain : key.isEncodable = true) :
    canSend (.obj [(key, value)]) = canSend value := by
  rw [canSend, canSendFields_eq, List.all_cons, List.all_nil, plain, Bool.true_and, Bool.and_true]

theorem canSend_coverage {coverage : LanguageCoverage}
    (fileScore : coverage.fileScore.finite?.isSome = true)
    (refScore : coverage.refScore.finite?.isSome = true)
    (tokDensity : coverage.tokDensity.finite?.isSome = true) :
    canSend coverage.document = coverage.uncoveredFiles.all Text.isEncodable := by
  have files : canSend (.arr (coverage.uncoveredFiles.map .str)) =
      coverage.uncoveredFiles.all Text.isEncodable := by
    rw [canSend, canSendItems_eq, List.all_map]
    congr 1
    funext s
    exact canSend_str s
  rw [LanguageCoverage.document, canSend, canSendFields_eq]
  simp only [List.all_cons, List.all_nil, canSend_float, fileScore, refScore, tokDensity, files,
    Bool.and_true]
  rfl

end Service

def Report.isPlain (report : Report) : Bool :=
  report.all fun entry => entry.2.uncoveredFiles.all Text.isEncodable

namespace Service

theorem canSend_of_summarize {files : Inventory} {report : Report}
    (plain : ∀ language ∈ files.languages, language.isEncodable = true)
    (made : files.summarize = .ok report) : canSend report.document = report.isPlain := by
  have entries : ∀ entry ∈ report, entry.1.isEncodable = true ∧
      canSend entry.2.document = entry.2.uncoveredFiles.all Text.isEncodable := by
    intro entry inside
    obtain ⟨known, tallied⟩ := Inventory.coverage_of_summarize made inside
    obtain ⟨fileScore, refScore, tokDensity, -⟩ := Tally.coverage_eq_ok_iff.mp tallied
    exact ⟨plain _ known, canSend_coverage (finite_of_score fileScore) (finite_of_score refScore)
      (finite_of_score tokDensity)⟩
  have sorted : report.sorted.Perm report := List.mergeSort_perm ..
  rw [Report.document, canSend, canSendFields_eq, List.all_map, sorted.all_eq, Report.isPlain,
    Bool.eq_iff_iff, List.all_eq_true, List.all_eq_true]
  refine forall₂_congr fun entry inside => ?_
  obtain ⟨name, files⟩ := entries entry inside
  rw [Function.comp_apply, name, files, Bool.true_and]

theorem isEncodable_of_language {language : Text}
    (known : language ∈ Source.languages.map Prod.snd) : language.isEncodable = true := by
  revert language
  decide

theorem canSend_of_report {limits : Limits} {disk : Disk} {context : Context} {log : Log}
    {report : Report} (made : Logged.outcome (context.report limits disk) log = .ok report) :
    canSend report.document = report.isPlain := by
  obtain ⟨files, store, data, built, -, -, summed⟩ := Context.outcome_report_eq_ok_iff.mp made
  refine canSend_of_summarize (fun language inside => ?_) (mapError_eq_ok_iff.mp summed)
  rw [languages_foldInto, Inventory.mem_languages] at inside
  obtain ⟨file, there, rfl⟩ := inside
  exact isEncodable_of_language (Inventory.language_of_build built file there)

theorem canSend_of_run {runner : Runner} {request : Request} {s : Session} {report : Report}
    (ran : ((runner.run request).run s).1.1 = .ok report) :
    canSend report.document = report.isPlain := by
  obtain ⟨log, met⟩ := runner.run_run request s
  rw [met] at ran
  obtain ⟨context, -, made⟩ := bind_eq_ok_iff.mp ran
  exact canSend_of_report made

end Service
end IndexCoverage
