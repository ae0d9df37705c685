import Mathlib
import Switchover.Proofs.Delivery.Saved
import Switchover.Traffic.Plan
import Switchover.Verdict.Thresholds

/-!
Saved thresholds and plans. Both are written as a table of all their fields and read from more than
that: from fields in any order or given as a list, with some of them left out. What is written reads
back, since an absent allowance is `null`, a bound on bursts a number and two bounds a pair, and
none of the three is read as another. Only the number of the delay may not come back.
-/
namespace Switchover

open Json (Value Outline Form Respells Yields AllFinite bind_eq_ok)

/-! ### Allowances -/

namespace DuplicationAllowance

/-- A pair can be held inside fewer brackets than there may be, a number anywhere. -/
theorem isHeld_outline {levels : Nat} (hlevels : 0 < levels) (a : DuplicationAllowance) :
    a.toJson.outline.isHeld levels = true := by
  obtain ⟨levels, rfl⟩ := Nat.exists_eq_add_of_le' hlevels
  have hnumber : ∀ n : UInt32, (Value.int n.toNat).outline.isHeld levels = true := by
    intro n
    rw [Json.outline_toNat]
    rfl
  cases a with
  | bursts n =>
    rw [toJson, Json.outline_toNat]
    rfl
  | burstsAndCopies n m =>
    rw [toJson, Value.outline, Json.itemsOutline_eq_map]
    simp [Outline.isHeld, Json.itemsHeld, hnumber]

/-- An allowance is read as it was. A pair is no number and so not taken for a bound on bursts. -/
theorem ofJson_outline {level : Nat} (hlevel : level < Json.deepest) (a : DuplicationAllowance) :
    ofJson level a.toJson.outline = .ok a := by
  rw [ofJson, Json.firstOf, if_pos (a.isHeld_outline (Nat.sub_pos_of_lt hlevel))]
  cases a with
  | bursts n =>
    have hread := Json.toUInt32_int n
    rw [toJson]
    simp only [List.findSome?_cons, hread]
    rfl
  | burstsAndCopies n m =>
    have hpair := Json.toPair_outline (Json.toUInt32_int n) (Json.toUInt32_int m)
    rw [toJson]
    simp only [List.findSome?_cons, hpair]
    rfl

/-- An absent allowance is `null`, which no allowance is. -/
theorem toOptional_outline {level : Nat} (hlevel : level < Json.deepest)
    (a : Option DuplicationAllowance) :
    (Value.optional toJson a).outline.toOptional (ofJson level) = .ok a := by
  cases a with
  | none => rfl
  | some a =>
    have hnull : a.toJson.outline ≠ .null := by
      cases a with
      | bursts n =>
        rw [toJson, Json.outline_toNat]
        exact Outline.noConfusion
      | burstsAndCopies n m =>
        rw [toJson, Value.outline]
        exact Outline.noConfusion
    rw [Value.optional, Json.toOptional_of_ne hnull, ofJson_outline hlevel]
    rfl

end DuplicationAllowance

/-! ### Thresholds -/

namespace Thresholds

/-- What the fields of thresholds are read as. -/
def outlines (t : Thresholds) : List (String × Outline) :=
  [("allowed_disruption", (Value.int t.allowedOutages.toNat).outline),
    ("delay", Json.realOutline t.delay),
    ("allowed_duplication",
      (Value.optional DuplicationAllowance.toJson t.allowedDuplication).outline),
    ("allow_disruption_before_traffic", .bool t.allowMissingBefore),
    ("merge_duplications_into_disruptions", .bool t.bridging)]

/-- Only the delay can keep thresholds from being read. -/
theorem ofJson_outline (t : Thresholds) : ofJson t.toJson.outline = do
    let delay ← (Json.realOutline t.delay).toFloat
    return { t with delay } := by
  have houtline : t.toJson.outline = .table (Json.keyed t.outlines) true := by
    simp [toJson, Value.outline, Json.membersOutline_eq_map, Json.keyed, outlines]
  have hnodup : (form 0).fields.Nodup := by simp [form, Form.lenient]
  have hlevel : 1 < Json.deepest := by decide
  have hallowance := DuplicationAllowance.toOptional_outline hlevel t.allowedDuplication
  rw [houtline, ofJson, (form 0).decode_table rfl hnodup]
  simp [form, Form.acceptAll, outlines, Form.lenient, Json.toUInt32_int, Json.ok_bind,
    hallowance, Json.toBool_bool, plain, -bind_pure_comp]

/-- Thresholds read back if their delay does. -/
theorem ofJson_eq_ok {t : Thresholds} : ofJson t.toJson.outline = .ok t ↔ Respells t.delay := by
  rw [ofJson_outline, bind_eq_ok, Json.respells_iff]
  constructor
  · rintro ⟨x, hx, h⟩
    obtain rfl : x = t.delay := congrArg delay (Except.ok.inj h)
    exact hx
  · intro h
    exact ⟨_, h, rfl⟩

/-- Thresholds that are read have a finite delay. -/
theorem yields_ofJson {o : Outline} (ho : AllFinite o.reals) :
    Yields (ofJson o) fun t => t.delay.isFinite = true := by
  refine Form.yields_decode (by decide) (fun t k o ht ho => ?_) ho
  have hread := Json.yields_toFloat ho
  simp only [form, Form.lenient]
  split
  · exact Json.yields_bind Json.yields_true fun _ _ => Json.yields_ok ht
  · exact Json.yields_bind hread fun x hx => Json.yields_ok hx
  · exact Json.yields_bind Json.yields_true fun _ _ => Json.yields_ok ht
  · exact Json.yields_bind Json.yields_true fun _ _ => Json.yields_ok ht
  · exact Json.yields_bind Json.yields_true fun _ _ => Json.yields_ok ht
  · exact Json.yields_ok ht

/-- Whether thresholds are read as themselves from both forms in which they may be saved. -/
def ReadsBack (t : Thresholds) : Prop :=
  Json.decodeText ofJson t.toJson.compact = .ok t ∧
    Json.decodeText ofJson t.toJson.indented = .ok t

theorem readsBack_iff {t : Thresholds} : t.ReadsBack ↔ Respells t.delay := by
  rw [ReadsBack, Json.decodeText_compact, Json.decodeText_indented, and_self, ofJson_eq_ok]

end Thresholds

/-! ### Plans -/

/-- A range is read as it was, also an empty one. -/
theorem IdRange.ofJson_outline (r : IdRange) : ofJson r.toJson.outline = .ok r := by
  have houtline : r.toJson.outline = .table (Json.keyed
      [("start", (Value.word r.first).outline), ("end", (Value.word r.last).outline)]) true := by
    simp [toJson, Value.outline, Json.membersOutline_eq_map, Json.keyed]
  rw [houtline, ofJson, form.decode_table rfl (by simp [form])]
  simp [form, Form.acceptAll, Json.toUInt64_word, Json.ok_bind]

namespace Plan

/-- A plan is read as it was. -/
theorem ofJson_outline (p : Plan) : ofJson p.toJson.outline = .ok p := by
  have hlosses := (Json.toList_outline IdRange.toJson IdRange.ofJson p.losses).mpr fun r _ =>
    r.ofJson_outline
  have hcopies := (Json.toList_outline
      (fun entry : UInt64 × UInt32 => Value.list [.word entry.1, .int entry.2.toNat])
      (Outline.toPair Outline.toUInt64 Outline.toUInt32) p.copies).mpr fun entry _ =>
    Json.toPair_outline (Json.toUInt64_word entry.1) (Json.toUInt32_int entry.2)
  have houtline : p.toJson.outline = .table (Json.keyed
      [("loss", (Value.list (p.losses.map IdRange.toJson)).outline),
        ("duplicates", (Value.list (p.copies.map fun entry =>
          Value.list [.word entry.1, .int entry.2.toNat])).outline),
        ("fail_on_start", .bool p.failsOnStart)]) true := by
    simp [toJson, Value.outline, Json.membersOutline_eq_map, Json.keyed]
  have hnodup : form.fields.Nodup := by simp [form, Form.lenient]
  rw [houtline, ofJson, form.decode_table rfl hnodup]
  simp [form, Form.acceptAll, Form.lenient, hlosses, hcopies, Json.ok_bind,
    Json.toBool_bool]

/-- Whether a plan is read as itself from both forms in which it may be saved. -/
def ReadsBack (p : Plan) : Prop :=
  Json.decodeText ofJson p.toJson.compact = .ok p ∧
    Json.decodeText ofJson p.toJson.indented = .ok p

theorem readsBack (p : Plan) : p.ReadsBack := by
  rw [ReadsBack, Json.decodeText_compact, Json.decodeText_indented, and_self, ofJson_outline]

end Plan

/-! ### What a text gives -/

/-- Thresholds read back exactly if the number of their delay does, whatever they allow, and plans
read back always. Thresholds that were read from any text have a finite delay; they and the plans
that were read from a text read back on the same conditions once they are saved again. -/
theorem thresholds_and_plans_read_back :
    (∀ t : Thresholds, t.ReadsBack ↔ Respells t.delay) ∧ (∀ p : Plan, p.ReadsBack) ∧
      (∀ (s : String) (t : Thresholds), Json.decodeText Thresholds.ofJson s = .ok t →
        t.delay.isFinite = true ∧ (t.ReadsBack ↔ Respells t.delay)) ∧
      ∀ (s : String) (p : Plan), Json.decodeText Plan.ofJson s = .ok p → p.ReadsBack := by
  refine ⟨fun t => Thresholds.readsBack_iff, Plan.readsBack, fun s t h => ?_, fun s p _ =>
    p.readsBack⟩
  exact ⟨Json.yields_decodeText (fun _ => Thresholds.yields_ofJson) s t h,
    Thresholds.readsBack_iff⟩

-- so that what a text is read as can be computed
deriving instance DecidableEq for Thresholds

/-- Thresholds given as a list that stops behind a pair, others that have no allowance but `null`,
and a plan with an empty range, another one given as a list, and an id that is listed twice. -/
theorem thresholds_and_plans_read_back_lists :
    let list := "[3, 0.25, [2, 6]]"
    let table := "\x7b\"delay\": 0.25, \"allowed_disruption\": 1, \"allowed_duplication\": null\x7d"
    let faults := "\x7b\"duplicates\": [[5, 4294967295], [5, 0]], " ++
      "\"loss\": [\x7b\"end\": 4, \"start\": 9\x7d, [0, 18446744073709551615]]\x7d"
    let pair : Thresholds := ⟨3, 0.25, some (.burstsAndCopies 2 6), false, false⟩
    let count : Thresholds := ⟨3, 0.25, some (.bursts 2), true, true⟩
    let plan : Plan := ⟨[⟨9, 4⟩, ⟨0, 18446744073709551615⟩], [(5, 4294967295), (5, 0)], false⟩
    Json.decodeText Thresholds.ofJson list = .ok pair ∧ pair.ReadsBack ∧ count.ReadsBack ∧
      Json.decodeText Thresholds.ofJson table = .ok (.plain 1 0.25) ∧
      (Thresholds.plain 1 0.25).ReadsBack ∧
      Json.decodeText Plan.ofJson faults = .ok plan ∧ plan.ReadsBack := by
  intro list table faults pair count plan
  obtain ⟨hthresholds, -, htext, hplan⟩ := thresholds_and_plans_read_back
  have hlist : Json.decodeText Thresholds.ofJson list = .ok pair :=
    Json.eq_ok_of_toOption (by decide +kernel)
  have htable : Json.decodeText Thresholds.ofJson table = .ok (.plain 1 0.25) :=
    Json.eq_ok_of_toOption (by decide +kernel)
  have hfaults : Json.decodeText Plan.ofJson faults = .ok plan :=
    Json.eq_ok_of_toOption (by decide +kernel)
  exact ⟨hlist, (htext list pair hlist).2.mpr respells_quarter,
    (hthresholds count).mpr respells_quarter, htable,
    (htext table _ htable).2.mpr respells_quarter, hfaults, hplan faults plan hfaults⟩

end Switchover
