import Mathlib
import Switchover.Proofs.Bridge.Runs
import Switchover.Verdict.Report

/-!
What a report is made of. The sentences on one endpoint are those of the rules that it violates, and
each rule can be told from its sentence. A report passes if no endpoint violates any rule. Bridging
changes nothing about a delivery but its outages, and leaves one wherever there was one.
-/
namespace Switchover

theorem Rule.mem_all (rule : Rule) : rule ∈ Rule.all := by
  cases rule <;> decide

/-! ### Sentences -/

namespace Rule

/-- What a sentence says in front of the name of the endpoint. -/
def opening : Rule → String
  | nothingReceived => "Test failed to capture any meaningful received packets for server "
  | tooManyOutages | tooManyBursts => "Traffic to server "
  | _ => "Traffic on server "

/-- What a sentence says behind the name, up to its first figure. -/
def deed : Rule → String
  | nothingReceived => ""
  | tooManyOutages => " was disrupted "
  | outageTooLong => " was disrupted for "
  | tooManyBursts => " was duplicated "
  | tooManyCopies => " with packet id "
  | duplicationTooLong => " was duplicated for "
  | missingBefore => " was disrupted prior to test start, missing "
  | missingAfter => " was disrupted after test end, missing "

theorem exists_message (t : Thresholds) (e : Endpoint) (s : Summary) (rule : Rule) :
    ∃ rest, rule.message t e s = rule.opening ++ (e.name ++ (rule.deed ++ rest)) := by
  -- the equations of `message` cost far more than its body
  delta message
  cases rule with
  | nothingReceived => exact ⟨"", by simp only [opening, deed, String.append_empty]⟩
  | _ =>
    simp only [opening, deed, String.append_assoc]
    exact ⟨_, rfl⟩

theorem opening_eq {rule rule' : Rule} (h : rule.opening.toList <+: rule'.opening.toList) :
    rule.opening = rule'.opening := by
  revert h
  cases rule <;> cases rule' <;> simp [opening]

theorem eq_of_deed {rule rule' : Rule} (hopening : rule.opening = rule'.opening)
    (h : rule.deed.toList <+: rule'.deed.toList) : rule = rule' := by
  revert hopening h
  cases rule <;> cases rule' <;> simp [opening, deed]

/-- Sentences about one endpoint that begin as those of two rules are sentences of one rule. -/
theorem eq_of_sentence {e : Endpoint} {rule rule' : Rule} {rest rest' : String}
    (h : rule.opening ++ (e.name ++ (rule.deed ++ rest)) =
      rule'.opening ++ (e.name ++ (rule'.deed ++ rest'))) : rule = rule' := by
  have hchars := congrArg String.toList h
  have hshared : ∀ {a a' b b' : List Char}, a ++ b = a' ++ b' → a <+: a' ∨ a' <+: a :=
    fun {a a' b b'} h =>
      List.prefix_or_prefix_of_prefix (List.prefix_append a b) (h ▸ List.prefix_append a' b')
  simp only [String.toList_append] at hchars
  have hopening : rule.opening = rule'.opening :=
    (hshared hchars).elim opening_eq fun h => (opening_eq h).symm
  rw [hopening, List.append_cancel_left_eq, List.append_cancel_left_eq] at hchars
  exact (hshared hchars).elim (eq_of_deed hopening) fun h => (eq_of_deed hopening.symm h).symm

/-- No two rules have the same sentence: it tells by its opening and its deed which one it is. -/
theorem message_injective (t : Thresholds) (e : Endpoint) (s : Summary) :
    Function.Injective (message t e s) := by
  intro rule rule' h
  obtain ⟨rest, hrest⟩ := exists_message t e s rule
  obtain ⟨rest', hrest'⟩ := exists_message t e s rule'
  exact eq_of_sentence (hrest.symm.trans (h.trans hrest'))

end Rule

/-! ### Deliveries as the rules see them -/

/-- What the rules are to see of a delivery. Its outages are bridged exactly when the thresholds ask
for it and there are any, and all else is as it was. -/
def Delivery.seenBy (t : Thresholds) (d : Delivery) : Delivery :=
  { d with
    outages := if t.bridging = true ∧ d.outages ≠ [] then bridge d.outages d.duplications
      else d.outages }

section Seen
variable (t : Thresholds) (e : Endpoint) (d : Delivery)

@[simp] theorem received_seenBy : (d.seenBy t).received = d.received := rfl

@[simp] theorem duplications_seenBy : (d.seenBy t).duplications = d.duplications := rfl

@[simp] theorem missingBefore_seenBy : (d.seenBy t).missingBefore = d.missingBefore := rfl

@[simp] theorem missingAfter_seenBy : (d.seenBy t).missingAfter = d.missingAfter := rfl

/-- A delivery is judged as it is to be seen. -/
theorem judged_eq_seenBy : t.judged d = d.seenBy t := by
  have hbridged : (t.bridging && !d.outages.isEmpty) = true ↔
      t.bridging = true ∧ d.outages ≠ [] := by
    rw [Bool.and_eq_true, Bool.not_eq_true', List.isEmpty_eq_false_iff]
  rw [Thresholds.judged, Delivery.seenBy]
  by_cases h : t.bridging = true ∧ d.outages ≠ []
  · rw [if_pos (hbridged.mpr h), if_pos h]
  · rw [if_neg (mt hbridged.mp h), if_neg h]

theorem findings_eq : findings t e d =
    (Rule.all.filter (Rule.isViolated t (d.seenBy t) (Summary.ofDelivery (d.seenBy t)))).map
      (Rule.message t e (Summary.ofDelivery (d.seenBy t))) := by
  rw [findings, judged_eq_seenBy]

variable {t e d}

theorem outages_seenBy_eq_nil : (d.seenBy t).outages = [] ↔ d.outages = [] := by
  rw [Delivery.seenBy]
  dsimp only
  split_ifs with h
  · exact iff_of_false (bridge_ne_nil d.duplications h.2) h.2
  · rfl

/-- An endpoint is reported with the sentence of a rule just if it violates this rule. -/
theorem mem_findings_iff {rule : Rule} :
    rule.message t e (Summary.ofDelivery (d.seenBy t)) ∈ findings t e d ↔
      rule.isViolated t (d.seenBy t) (Summary.ofDelivery (d.seenBy t)) = true := by
  rw [findings_eq, List.mem_map_of_injective (Rule.message_injective ..), List.mem_filter,
    and_iff_right rule.mem_all]

/-- An endpoint is not mentioned if it keeps all rules. -/
theorem findings_eq_nil_iff : findings t e d = [] ↔
    ∀ rule : Rule, rule.isViolated t (d.seenBy t) (Summary.ofDelivery (d.seenBy t)) = false := by
  rw [findings_eq, List.map_eq_nil_iff, List.filter_eq_nil_iff]
  exact ⟨fun h rule => by simpa using h rule rule.mem_all, fun h rule _ => by simp [h rule]⟩

theorem failures_of_evaluate {ds : Deliveries} {report : Report} (h : evaluate t ds = .ok report) :
    report.failures = [] ↔ ∀ entry ∈ ds.entries, findings t entry.1 entry.2 = [] := by
  rw [evaluate] at h
  split_ifs at h
  obtain rfl := Except.ok.inj h
  exact List.flatMap_eq_nil_iff

end Seen

end Switchover
