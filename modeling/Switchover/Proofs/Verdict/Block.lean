import Mathlib
import Switchover.Proofs.Decimal.Digits
import Switchover.Proofs.Text.Lines
import Switchover.Proofs.Verdict.Composition

/-!
The failures of a report as one text. A sentence has no line break but those in the name of its
endpoint, so the lines of the text are the failures exactly as long as no endpoint that breaks a
rule has a name of several lines.
-/
namespace Switchover

open Decimal (isNumberChar_format notMem_toDigits)
open Text (lines lines_join flatMap_lines_eq_iff)

/-! ### Line breaks in sentences -/

theorem newline_notMem_seconds (x : Float) : '\n' ∉ (seconds x).toList := by
  have hnumber : '\n' ∉ (Decimal.measured.format x).toList := by
    intro h
    exact absurd (isNumberChar_format _ x _ h) (by simp [Decimal.IsNumberChar])
  simp [seconds, hnumber]

/-- A sentence breaks a line just where the name of its endpoint does. -/
theorem newline_mem_message (t : Thresholds) (e : Endpoint) (s : Summary) (rule : Rule) :
    '\n' ∈ (rule.message t e s).toList ↔ '\n' ∈ e.name.toList := by
  have hdigits (n : Nat) : '\n' ∉ Nat.toDigits 10 n := notMem_toDigits (by decide) n
  -- the equations of `message` cost far more than its body
  delta Rule.message
  cases rule with
  | nothingReceived => simp
  | tooManyCopies => cases s.mostCopiesId <;> simp [hdigits]
  | outageTooLong | duplicationTooLong => simp [newline_notMem_seconds]
  | _ => simp [hdigits]

/-! ### Lines of a report -/

section Reports
variable {t : Thresholds} (ht : t.isValid = true)
include ht

/-- What is said about an endpoint has no line break if the name has none or no rule is broken. -/
theorem newline_notMem_findings_iff (e : Endpoint) (d : Delivery) :
    (∀ s ∈ findings t e d, '\n' ∉ s.toList) ↔
      ('\n' ∈ e.name.toList → ∀ rule : Rule, ¬ rule.Broken t (d.seenBy t)) := by
  obtain ⟨rules, -, hrules, hfindings⟩ := names_findings ht e d
  rw [hfindings, List.forall_mem_map]
  simp only [newline_mem_message, hrules]
  tauto

theorem newline_notMem_segments_iff (entries : List (Endpoint × Delivery)) :
    (∀ s ∈ segments t entries, '\n' ∉ s.toList) ↔ ∀ x ∈ entries,
      '\n' ∈ x.1.name.toList → ∀ rule : Rule, ¬ rule.Broken t (x.2.seenBy t) := by
  rw [segments, List.forall_mem_flatMap]
  exact forall₂_congr fun x _ => newline_notMem_findings_iff ht x.1 x.2

/-- The failures of a report are one sentence for each rule that an endpoint breaks. Their text is
an empty line and the lines of each failure. That is one line for each failure exactly if every
endpoint whose name has a line break keeps all rules. -/
theorem block_lines_iff (ds : Deliveries) :
    ∃ report, evaluate t ds = .ok report ∧
      report.failures = segments t ds.entries ∧
      (∀ e d, Names t e (d.seenBy t) (findings t e d)) ∧
      lines report.block = "" :: report.failures.flatMap lines ∧
      (lines report.block = "" :: report.failures ↔ ∀ x ∈ ds.entries,
        '\n' ∈ x.1.name.toList → ∀ rule : Rule, ¬ rule.Broken t (x.2.seenBy t)) := by
  have hlines (report : Report) : lines report.block = "" :: report.failures.flatMap lines :=
    lines_join report.failures
  refine ⟨_, evaluate_eq ht ds, rfl, names_findings ht, hlines _, ?_⟩
  rw [hlines, List.cons_inj_right, flatMap_lines_eq_iff]
  exact newline_notMem_segments_iff ht ds.entries

end Reports

/-- An endpoint whose name has two lines spoils the text if it is the one that lost its packet, and
does not if it is the one that received it. -/
theorem block_lines_iff_two_lines :
    let t : Thresholds := .plain 0 0
    let lost : Delivery := ⟨1, 0, [], [], 0, 0⟩
    let whole : Delivery := ⟨1, 1, [], [], 0, 0⟩
    let spoiled : Deliveries := .ofList [(⟨"10.0.0.1"⟩, whole), (⟨"a\nb"⟩, lost)]
    let tidy : Deliveries := .ofList [(⟨"10.0.0.1"⟩, lost), (⟨"a\nb"⟩, whole)]
    t.isValid = true ∧
      (∃ report, evaluate t spoiled = .ok report ∧ lines report.block ≠ "" :: report.failures) ∧
      ∃ report, evaluate t tidy = .ok report ∧ report.failures ≠ [] ∧
        lines report.block = "" :: report.failures := by
  intro t lost whole spoiled tidy
  have ht : t.isValid = true := by decide
  have hspoiled : spoiled.entries = [(⟨"10.0.0.1"⟩, whole), (⟨"a\nb"⟩, lost)] := by cbv
  have htidy : tidy.entries = [(⟨"10.0.0.1"⟩, lost), (⟨"a\nb"⟩, whole)] := by cbv
  have hwhole : ∀ rule : Rule, ¬ rule.Broken t (whole.seenBy t) := by
    intro rule
    rw [← isViolated_iff ht]
    cases rule <;> decide
  obtain ⟨report, hreport, -, -, -, hiff⟩ := block_lines_iff ht spoiled
  obtain ⟨report', hreport', -, -, -, hiff'⟩ := block_lines_iff ht tidy
  refine ⟨ht, ⟨report, hreport, fun h => ?_⟩, report', hreport', ?_, hiff'.mpr ?_⟩
  · refine hiff.mp h (⟨"a\nb"⟩, lost) ?_ (by decide) .nothingReceived rfl
    simp [hspoiled]
  · intro hnone
    have hfindings :=
      (failures_of_evaluate hreport').mp hnone (⟨"10.0.0.1"⟩, lost) (by simp [htidy])
    exact absurd (findings_eq_nil_iff.mp hfindings .nothingReceived) (by decide)
  · rw [htidy]
    simp [hwhole]

end Switchover
