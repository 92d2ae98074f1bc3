import PrefixArithmetic.Proofs.CommandLine.Sources
import PrefixArithmetic.Proofs.Parsing.Flat
import PrefixArithmetic.Proofs.Report

/-!
# Batches

The lines of a script are answered one by one. A script that is put together of
two others is answered by their two answers, one after the other, with an empty
line between full reports; and it fails if one of them does. Lines that are
skipped, blanks around a line and the way in which lines end leave no trace.
-/
namespace PrefixArithmetic.CommandLine

/-- What stands between two outputs: an empty line between full reports, if there are some in
both. -/
def gap (quiet : Bool) (front back : String) : String :=
  if quiet = false ∧ front ≠ "" ∧ back ≠ "" then "\n" else ""

section Transcript

theorem transcript_quiet (reports : List Report) :
    transcript true reports = String.join (reports.map (·.summary ++ "\n")) := rfl

theorem transcript_full (reports : List Report) :
    transcript false reports = "\n".intercalate (reports.map (·.text ++ "\n")) := rfl

/-- Nothing is printed only if there is no report. -/
theorem transcript_eq_empty_iff {quiet : Bool} {reports : List Report} :
    transcript quiet reports = "" ↔ reports = [] := by
  cases reports with
  | nil => cases quiet <;> simp [transcript_quiet, transcript_full]
  | cons first rest =>
    cases quiet with
    | true => simp [transcript_quiet]
    | false => cases rest <;> simp [transcript_full]

/-- The reports of two parts are printed in a row. -/
theorem transcript_append (quiet : Bool) (front back : List Report) :
    transcript quiet (front ++ back) =
      transcript quiet front ++ gap quiet (transcript quiet front) (transcript quiet back) ++
        transcript quiet back := by
  simp only [gap, ne_eq, transcript_eq_empty_iff]
  cases quiet with
  | true => simp [transcript_quiet, String.join_append]
  | false =>
    by_cases hfront : front = []
    · simp [hfront, transcript_full]
    by_cases hback : back = []
    · simp [hback, transcript_full]
    have htexts := String.intercalate_append_of_ne_nil (s := "\n")
      (l := front.map (·.text ++ "\n")) (m := back.map (·.text ++ "\n")) (by simpa) (by simpa)
    simp [transcript_full, hfront, hback, htexts]

end Transcript

/-- The whole fails if one of the parts does. -/
theorem respond_append (quiet : Bool) (front back : List String) :
    let first := respond quiet (some front)
    let second := respond quiet (some back)
    respond quiet (some (front ++ back)) =
      ⟨max first.status second.status,
        first.output ++ gap quiet first.output second.output ++ second.output⟩ := by
  simp only [respond, List.map_append, transcript_append, List.all_append, Bool.and_eq_true]
  congr 1
  split_ifs <;> simp_all

/-- The status is zero if everything can be evaluated. -/
theorem status_eq_zero_iff {quiet : Bool} {expressions : List String} :
    (respond quiet (some expressions)).status = 0 ↔
      ∀ expression ∈ expressions, ∃ value, evaluateSource expression = .ok value := by
  have hall : (expressions.map report).all Report.succeeded = true ↔
      ∀ expression ∈ expressions, ∃ value, evaluateSource expression = .ok value := by
    rw [List.all_map, List.all_eq_true]
    exact forall₂_congr fun expression _ => succeeded_report_iff
  rw [← hall, respond]
  split_ifs with h <;> simp [h]

namespace Invocation
variable {run other : Invocation} {quiet : Bool} {text : String}

/-- The text is a script, in a file or on standard input. -/
def ReadsScript (run : Invocation) (quiet : Bool) (text : String) : Prop :=
  run.ReadsFile quiet text.toUTF8 ∨ run.ReadsStream quiet text.toUTF8

/-- A script is answered by its kept lines. -/
theorem answer_of_readsScript (h : run.ReadsScript quiet text) :
    run.answer = respond quiet (some (Script.kept text)) := by
  rw [← Script.ofFile?_toUTF8]
  rcases h with hfile | hstream
  · exact answer_of_readsFile hfile
  · exact answer_of_readsStream hstream

/-- Nothing is printed for a script only if nothing is kept of it. -/
theorem output_eq_empty_iff (h : run.ReadsScript quiet text) :
    run.answer.output = "" ↔ Script.kept text = [] := by
  rw [answer_of_readsScript h, respond, transcript_eq_empty_iff, List.map_eq_nil_iff]

/-- Scripts that keep the same are answered alike. -/
theorem answer_congr {text' : String} (hkept : Script.kept text = Script.kept text')
    (hrun : run.ReadsScript quiet text) (hother : other.ReadsScript quiet text') :
    run.answer = other.answer := by
  rw [answer_of_readsScript hrun, answer_of_readsScript hother, hkept]

end Invocation

section Lines
variable {front back extra : List String} {line left right : String}

/-- Lines that are skipped may stand anywhere. -/
theorem kept_skipped (hlines : Script.AreLines (front ++ extra ++ back))
    (hextra : ∀ line ∈ extra, Script.Skipped line.toList) :
    Script.kept ("\n".intercalate (front ++ extra ++ back)) =
      Script.kept ("\n".intercalate (front ++ back)) := by
  have hnone : extra.filterMap (Script.expression? ·.toList) = [] := by
    rw [List.filterMap_eq_nil_iff]
    exact fun line hline => Script.expression?_eq_none_iff.mpr (hextra line hline)
  simp only [Script.areLines_append_iff] at hlines
  have hrest : Script.AreLines (front ++ back) :=
    Script.areLines_append_iff.mpr ⟨hlines.1.1, hlines.2⟩
  rw [Script.kept_intercalate (by simpa only [Script.areLines_append_iff] using hlines),
    Script.kept_intercalate hrest]
  simp only [Script.expressions, List.filterMap_append, hnone, List.append_nil]

/-- Blanks around a line do not count. -/
theorem kept_padded (hlines : Script.AreLines (front ++ (left ++ line ++ right) :: back))
    (hleft : Text.AllBlank left.toList) (hright : Text.AllBlank right.toList) :
    Script.kept ("\n".intercalate (front ++ (left ++ line ++ right) :: back)) =
      Script.kept ("\n".intercalate (front ++ line :: back)) := by
  have hline : Script.expression? (left ++ line ++ right).toList =
      Script.expression? line.toList := by
    refine Script.expression?_congr ?_
    rw [String.toList_append, String.toList_append, Text.trim_append_blank hright,
      Text.trim_blank_append hleft]
  have hbare : Script.AreLines (front ++ line :: back) := by
    simp only [Script.areLines_append_iff, Script.areLines_cons_iff, String.toList_append,
      List.mem_append, not_or] at hlines ⊢
    exact ⟨hlines.1, hlines.2.1.1.2, hlines.2.2⟩
  rw [Script.kept_intercalate hlines, Script.kept_intercalate hbare]
  simp only [Script.expressions, List.filterMap_append, List.filterMap_cons, hline]

end Lines

/-- A script is answered line by line: in parts, and whatever is skipped or blank around lines. -/
theorem batches_compose (quiet : Bool) :
    (∀ (front back : String) (first second whole : Invocation), Script.EndsLine front →
      first.ReadsScript quiet front → second.ReadsScript quiet back →
        whole.ReadsScript quiet (front ++ back) →
          whole.answer.output = first.answer.output ++
            (if quiet = false ∧ first.answer.output ≠ "" ∧ second.answer.output ≠ "" then "\n"
              else "") ++ second.answer.output ∧
          whole.answer.status = max first.answer.status second.answer.status) ∧
    (∀ (text : String) (run : Invocation), run.ReadsScript quiet text →
      (run.answer.status = 0 ↔
        ∀ expression ∈ Script.kept text, ∃ value, evaluateSource expression = .ok value) ∧
      ∀ expression ∈ Script.kept text, ∀ value, evaluateSource expression = .ok value →
        ∃ code, codeSource expression = .ok code) ∧
    (∀ (front extra back : List String) (run other : Invocation),
      Script.AreLines (front ++ extra ++ back) →
        (∀ line ∈ extra, Script.Skipped line.toList) →
          run.ReadsScript quiet ("\n".intercalate (front ++ extra ++ back)) →
            other.ReadsScript quiet ("\n".intercalate (front ++ back)) →
              run.answer = other.answer) ∧
    (∀ (front back : List String) (left line right : String) (run other : Invocation),
      Script.AreLines (front ++ (left ++ line ++ right) :: back) →
        Text.AllBlank left.toList → Text.AllBlank right.toList →
          run.ReadsScript quiet ("\n".intercalate (front ++ (left ++ line ++ right) :: back)) →
            other.ReadsScript quiet ("\n".intercalate (front ++ line :: back)) →
              run.answer = other.answer) ∧
    ∀ (text : String) (run other : Invocation),
      run.ReadsScript quiet (String.ofList (text.toList.flatMap fun c =>
        if c = '\n' then ['\r', '\n'] else [c])) →
          other.ReadsScript quiet text → run.answer = other.answer := by
  refine ⟨?_, ?_, ?_, ?_, ?_⟩
  · intro front back first second whole hfront hfirst hsecond hwhole
    have happend := respond_append quiet (Script.kept front) (Script.kept back)
    rw [Invocation.answer_of_readsScript hfirst, Invocation.answer_of_readsScript hsecond,
      Invocation.answer_of_readsScript hwhole, Script.kept_append hfront, happend]
    exact ⟨rfl, rfl⟩
  · intro text run hrun
    rw [Invocation.answer_of_readsScript hrun]
    exact ⟨status_eq_zero_iff, fun _ _ _ => exists_codeSource_of_evaluateSource⟩
  · intro front extra back run other hlines hextra
    exact Invocation.answer_congr (kept_skipped hlines hextra)
  · intro front back left line right run other hlines hleft hright
    exact Invocation.answer_congr (kept_padded hlines hleft hright)
  · intro text run other
    exact Invocation.answer_congr (Script.kept_withReturn text)

/-- A script in a file and one in a stream, and both in one stream, with a comment between them,
with blanks around a line and with carriage returns. -/
theorem batches_compose_endings :
    let byFile : String → Invocation := fun text =>
      ⟨["--file", "script"], .empty, fun _ => some text.toUTF8⟩
    let byStream : String → Invocation := fun text => ⟨[], text.toUTF8, fun _ => none⟩
    let first := (byFile "1\n").answer
    let second := (byStream "div 4 0").answer
    let whole := (byStream "1\ndiv 4 0").answer
    whole.output = first.output ++ "\n" ++ second.output ∧
      whole.status = max first.status second.status ∧ second.status ≠ 0 ∧
        (byStream "1\n # note\ndiv 4 0").answer = whole ∧
          (byStream "1\n\t div 4 0 ").answer = whole ∧
            (byStream "1\r\ndiv 4 0").answer = whole := by
  intro byFile byStream first second whole
  have hfile : ∀ text, (byFile text).ReadsScript false text :=
    fun _ => .inl ⟨"script", ⟨_, rfl, rfl, rfl⟩, rfl⟩
  have hstream : ∀ text, (byStream text).ReadsScript false text :=
    fun _ => .inr ⟨⟨_, rfl, rfl, rfl⟩, rfl⟩
  obtain ⟨happend, hstatus, hskipped, hpadded, hreturn⟩ := batches_compose false
  obtain ⟨houtput, hmax⟩ := happend "1\n" "div 4 0" (byFile "1\n") (byStream "div 4 0")
    (byStream "1\ndiv 4 0") (by decide) (hfile _) (hstream _) (hstream _)
  have hfirst : first.output ≠ "" := (Invocation.output_eq_empty_iff (hfile _)).not.mpr (by decide)
  have hsecond : second.output ≠ "" :=
    (Invocation.output_eq_empty_iff (hstream _)).not.mpr (by decide)
  rw [if_pos ⟨rfl, hfirst, hsecond⟩] at houtput
  have hfails : second.status ≠ 0 := by
    obtain ⟨hzero, -⟩ := hstatus "div 4 0" (byStream "div 4 0") (hstream _)
    have hparse : parse (tokenize "div 4 0") =
        .ok (.operation (.known .div) [.literal 4 1, .literal 0 2] 0) :=
      parse_of_word "div" ["4", "0"] (by decide)
    intro hsucceeds
    obtain ⟨value, hvalue⟩ := hzero.mp hsucceeds "div 4 0" (by decide)
    rw [evaluateSource, hparse] at hvalue
    cases hvalue
  have hnote := hskipped ["1"] [" # note"] ["div 4 0"] (byStream "1\n # note\ndiv 4 0")
    (byStream "1\ndiv 4 0") (by decide) (by decide) (hstream _) (hstream _)
  have hblanks := hpadded ["1"] [] "\t " "div 4 0" " " (byStream "1\n\t div 4 0 ")
    (byStream "1\ndiv 4 0") (by decide) (by decide) (by decide) (hstream _) (hstream _)
  have hreturns := hreturn "1\ndiv 4 0" (byStream "1\r\ndiv 4 0") (byStream "1\ndiv 4 0")
    (hstream _) (hstream _)
  exact ⟨houtput, hmax, hfails, hnote, hblanks, hreturns⟩

end PrefixArithmetic.CommandLine
