import PrefixArithmetic.Proofs.Postorder
import PrefixArithmetic.Report

/-!
# Reports

Evaluation and coding refuse the same operators, and coding refuses nothing
else. So a source has code wherever it has a value, and the first fault of a
report is never one of coding: parsing and evaluation alone decide success.
-/
namespace PrefixArithmetic

namespace Expr
variable {expr : Expr} {name : String} {position : ℕ}

/-- Coding fails for the first unknown operator in postorder. -/
theorem code_eq_error_iff :
    expr.code = .error ⟨position, .unknownOperator name⟩ ↔
      expr.unknowns.head? = some (name, position) :=
  walk_eq_error_iff refusesUnknown_join

/-- Coding fails exactly if there is an unknown operator. -/
theorem exists_code_eq_error_iff :
    (∃ fault, expr.code = .error fault) ↔
      ∃ name operands position, operation (.unknown name) operands position ∈ expr.postorder := by
  rw [← unknowns_ne_nil_iff]
  constructor
  · intro h hnone
    obtain ⟨⟨position, ⟨name⟩⟩, hfault⟩ := h
    rw [code_eq_error_iff, hnone] at hfault
    cases hfault
  · intro hne
    obtain ⟨⟨name, position⟩, rest, hcons⟩ := List.exists_cons_of_ne_nil hne
    exact ⟨⟨position, .unknownOperator name⟩, code_eq_error_iff.mpr (by rw [hcons]; rfl)⟩

/-- An expression with a value has code. -/
theorem exists_code_of_evaluate {value : Value} (h : expr.evaluate = .ok value) :
    ∃ code, expr.code = .ok code :=
  (exists_walk_eq_ok_iff refusesUnknown_join).mpr (unknowns_of_walk_eq_ok refusesUnknown_apply h)

/-- Coding refuses the unknown operator that evaluation refuses. -/
theorem code_eq_error_of_evaluate (h : expr.evaluate = .error ⟨position, .unknownOperator name⟩) :
    expr.code = .error ⟨position, .unknownOperator name⟩ :=
  code_eq_error_iff.mpr (unknowns_of_walk_eq_error refusesUnknown_apply h)

end Expr

section Source
variable {source : String}

section Unparsed
variable {fault : Fault ParseCause} (hparse : parse (tokenize source) = .error fault)
include hparse

theorem report_of_parse_error : report source = ⟨tokenize source, .error fault⟩ := by
  rw [report, hparse]
  rfl

theorem evaluateSource_of_parse_error : evaluateSource source = .error (.parsing fault) := by
  rw [evaluateSource, hparse]
  rfl

theorem codeSource_of_parse_error : codeSource source = .error (.parsing fault) := by
  rw [codeSource, hparse]
  rfl

end Unparsed

section Parsed
variable {tree : Expr} (hparse : parse (tokenize source) = .ok tree)
include hparse

theorem report_of_parse_ok : report source = ⟨tokenize source, .ok tree.analyse⟩ := by
  rw [report, hparse]
  rfl

theorem evaluateSource_of_parse_ok :
    evaluateSource source = tree.evaluate.mapError .evaluation := by
  rw [evaluateSource, hparse]
  rfl

theorem codeSource_of_parse_ok : codeSource source = tree.code.mapError .coding := by
  rw [codeSource, hparse]
  rfl

end Parsed

/-- A report holds what evaluation and coding of its source give. -/
theorem source_eq_recorded (source : String) :
    match (report source).parsed with
    | .error fault =>
      evaluateSource source = .error (.parsing fault) ∧ codeSource source = .error (.parsing fault)
    | .ok analysis =>
      evaluateSource source = analysis.value.mapError .evaluation ∧
        codeSource source = analysis.code.mapError .coding := by
  cases hparse : parse (tokenize source) with
  | error fault =>
    rw [report_of_parse_error hparse]
    exact ⟨evaluateSource_of_parse_error hparse, codeSource_of_parse_error hparse⟩
  | ok tree =>
    rw [report_of_parse_ok hparse]
    exact ⟨evaluateSource_of_parse_ok hparse, codeSource_of_parse_ok hparse⟩

/-- The first fault of a report is the one that evaluation of the source ends with. -/
theorem firstFault?_report (source : String) :
    (report source).firstFault? =
      match evaluateSource source with
      | .error fault => some fault
      | .ok _ => none := by
  cases hparse : parse (tokenize source) with
  | error fault =>
    rw [report_of_parse_error hparse, evaluateSource_of_parse_error hparse]
    rfl
  | ok tree =>
    rw [report_of_parse_ok hparse, evaluateSource_of_parse_ok hparse]
    cases hvalue : tree.evaluate with
    | error fault => simp [Report.firstFault?, Expr.analyse, hvalue, Except.mapError]
    | ok value =>
      obtain ⟨code, hcode⟩ := Expr.exists_code_of_evaluate hvalue
      simp [Report.firstFault?, Expr.analyse, hvalue, hcode, Except.mapError]

theorem firstFault?_report_eq_some_iff {fault : StageFault} :
    (report source).firstFault? = some fault ↔ evaluateSource source = .error fault := by
  rw [firstFault?_report]
  cases evaluateSource source <;> simp

theorem succeeded_report_iff :
    (report source).succeeded = true ↔ ∃ value, evaluateSource source = .ok value := by
  rw [Report.succeeded, firstFault?_report]
  cases evaluateSource source <;> simp

/-- Evaluation of a source has no fault of coding to report. -/
theorem evaluateSource_ne_coding (fault : Fault CodeCause) :
    evaluateSource source ≠ .error (.coding fault) := by
  cases hparse : parse (tokenize source) with
  | error fault => rw [evaluateSource_of_parse_error hparse]; nofun
  | ok tree =>
    rw [evaluateSource_of_parse_ok hparse]
    cases tree.evaluate <;> nofun

theorem evaluateSource_eq_ok_iff {value : Value} :
    evaluateSource source = .ok value ↔
      ∃ tree, parse (tokenize source) = .ok tree ∧ tree.evaluate = .ok value := by
  cases hparse : parse (tokenize source) with
  | error fault => simp [evaluateSource_of_parse_error hparse]
  | ok tree =>
    rw [evaluateSource_of_parse_ok hparse]
    cases hvalue : tree.evaluate <;> simp [Except.mapError, hvalue]

theorem evaluateSource_eq_evaluation_iff {fault : Fault EvalCause} :
    evaluateSource source = .error (.evaluation fault) ↔
      ∃ tree, parse (tokenize source) = .ok tree ∧ tree.evaluate = .error fault := by
  cases hparse : parse (tokenize source) with
  | error fault => simp [evaluateSource_of_parse_error hparse]
  | ok tree =>
    rw [evaluateSource_of_parse_ok hparse]
    cases hvalue : tree.evaluate <;> simp [Except.mapError, hvalue]

theorem exists_codeSource_of_evaluateSource {value : Value}
    (h : evaluateSource source = .ok value) : ∃ code, codeSource source = .ok code := by
  obtain ⟨tree, hparse, hvalue⟩ := evaluateSource_eq_ok_iff.mp h
  obtain ⟨code, hcode⟩ := Expr.exists_code_of_evaluate hvalue
  exact ⟨code, by rw [codeSource_of_parse_ok hparse, hcode]; rfl⟩

end Source

/-- Coding refuses nothing but unknown operators, which evaluation refuses too; so whether a
source succeeds is decided by its evaluation, and its report says the same. -/
theorem evaluation_decides_success :
    (∀ expr : Expr,
      ((∃ fault, expr.code = .error fault) ↔ ∃ name operands position,
        Expr.operation (.unknown name) operands position ∈ expr.postorder) ∧
      (∀ name position, expr.code = .error ⟨position, .unknownOperator name⟩ ↔
        expr.unknowns.head? = some (name, position)) ∧
      (∀ value, expr.evaluate = .ok value → ∃ code, expr.code = .ok code) ∧
      ∀ name position, expr.evaluate = .error ⟨position, .unknownOperator name⟩ →
        expr.code = .error ⟨position, .unknownOperator name⟩) ∧
    ∀ source : String,
      ((report source).succeeded = true ↔ ∃ value, evaluateSource source = .ok value) ∧
      (∀ fault, (report source).firstFault? ≠ some (.coding fault)) ∧
      (∀ fault, (report source).firstFault? = some fault ↔ evaluateSource source = .error fault) ∧
      (∀ value, evaluateSource source = .ok value → ∃ code, codeSource source = .ok code) ∧
      match (report source).parsed with
      | .error fault =>
        evaluateSource source = .error (.parsing fault) ∧
          codeSource source = .error (.parsing fault)
      | .ok analysis =>
        evaluateSource source = analysis.value.mapError .evaluation ∧
          codeSource source = analysis.code.mapError .coding := by
  constructor
  · intro expr
    exact ⟨Expr.exists_code_eq_error_iff, fun _ _ => Expr.code_eq_error_iff,
      fun _ => Expr.exists_code_of_evaluate, fun _ _ => Expr.code_eq_error_of_evaluate⟩
  · intro source
    refine ⟨succeeded_report_iff, ?_, fun _ => firstFault?_report_eq_some_iff,
      fun _ => exists_codeSource_of_evaluateSource, source_eq_recorded source⟩
    intro fault hfirst
    exact evaluateSource_ne_coding fault (firstFault?_report_eq_some_iff.mp hfirst)

/-- Of two unknown operators the inner one is refused, by evaluation and by coding. -/
theorem evaluation_decides_success_inner :
    let expr := Expr.operation (.unknown "pow") [.literal 2 1,
      .operation (.known .sum) [.literal 3 3, .operation (.unknown "max") [.literal 4 5] 4] 2] 0
    expr.evaluate = .error ⟨4, .unknownOperator "max"⟩ ∧
      expr.code = .error ⟨4, .unknownOperator "max"⟩ ∧
      expr.unknowns.head? = some ("max", 4) := by
  intro expr
  have hvalue : expr.evaluate = .error ⟨4, .unknownOperator "max"⟩ := rfl
  obtain ⟨-, hfirst, -, hrefused⟩ := evaluation_decides_success.1 expr
  have hcode := hrefused "max" 4 hvalue
  exact ⟨hvalue, hcode, (hfirst "max" 4).mp hcode⟩

end PrefixArithmetic
