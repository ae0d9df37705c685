import Mathlib
import Switchover.Proofs.Decimal.Digits
import Switchover.Proofs.Text.Stretches
import Switchover.Proofs.Verdict.Conditions
import Switchover.Proofs.Verdict.Rules

/-!
Which packet a report blames for its copies. The scan over the duplications keeps the greatest
number of copies and the id that it belongs to side by side: after every entry they are those of the
first entry with the most copies so far, unless no entry has any. So a number beyond a bound always
comes with an id.
-/
namespace Switchover

open Decimal (notMem_toDigits)
open Text (append_last_separator_inj)

/-- Whether an entry has the most copies of all, and is the first one with so many. -/
def IsWorst (ds : List Duplication) (x : Duplication) : Prop :=
  ∃ front back, ds = front ++ x :: back ∧ (∀ y ∈ front, y.excess < x.excess) ∧
    ∀ y ∈ back, y.excess ≤ x.excess

/-- What is said about an endpoint when `n` copies of the packet `who` are too many. -/
def copiesSentence (t : Thresholds) (e : Endpoint) (who : String) (n : UInt32) : String :=
  "Traffic on server " ++ e.name ++ " with packet id " ++ who ++ " has " ++ toString n.toNat
    ++ " duplications. Allowed max number of duplication count: " ++ toString t.bounds.copies.toNat

/-! ### The scan -/

section Scan
variable {ds : List Duplication} {x y d : Duplication}

theorem IsWorst.mem (h : IsWorst ds x) : x ∈ ds := by
  obtain ⟨front, back, rfl, -⟩ := h
  exact List.mem_append_right front List.mem_cons_self

/-- There is one first entry with the most copies. -/
theorem IsWorst.unique (hx : IsWorst ds x) (hy : IsWorst ds y) : x = y := by
  obtain ⟨front, back, rfl, hfront, hback⟩ := hx
  obtain ⟨front', back', hcut, hfront', hback'⟩ := hy
  -- an entry in front of the other has fewer copies than that, and not fewer
  rcases List.append_eq_append_iff.mp hcut with ⟨between, rfl, h⟩ | ⟨between, rfl, h⟩
  · cases between with
    | nil => exact (List.cons.inj h).1
    | cons z between =>
      obtain ⟨rfl, rfl⟩ := List.cons.inj h
      have hlt := hfront' x (by simp)
      have hle := hback y (by simp)
      exact absurd hlt (UInt32.not_lt.mpr hle)
  · cases between with
    | nil => exact (List.cons.inj h).1.symm
    | cons z between =>
      obtain ⟨rfl, rfl⟩ := List.cons.inj h
      have hlt := hfront y (by simp)
      have hle := hback' x (by simp)
      exact absurd hlt (UInt32.not_lt.mpr hle)

theorem isWorst_concat_self (h : ∀ y ∈ ds, y.excess < d.excess) : IsWorst (ds ++ [d]) d :=
  ⟨ds, [], rfl, h, nofun⟩

theorem IsWorst.concat (h : IsWorst ds x) (hd : d.excess ≤ x.excess) : IsWorst (ds ++ [d]) x := by
  obtain ⟨front, back, rfl, hfront, hback⟩ := h
  refine ⟨front, back ++ [d], by simp, hfront, ?_⟩
  exact List.forall_mem_append.mpr ⟨hback, List.forall_mem_singleton.mpr hd⟩

theorem worstDuplication_concat (ds : List Duplication) (d : Duplication) :
    worstDuplication (ds ++ [d]) =
      if (worstDuplication ds).1 < d.excess then (d.excess, some d.window.startId)
      else worstDuplication ds := by
  rw [worstDuplication, List.foldl_append]
  rfl

theorem excess_le_worstDuplication (h : y ∈ ds) : y.excess ≤ (worstDuplication ds).1 := by
  rw [← UInt32.not_lt]
  intro hlt
  exact UInt32.lt_irrefl _ (lt_worstDuplication_iff.mpr ⟨y, h, hlt⟩)

/-- The scan has found nothing, or it holds the figures of the first entry with the most copies. -/
theorem worstDuplication_cases (ds : List Duplication) :
    worstDuplication ds = (0, none) ∨
      ∃ x, IsWorst ds x ∧ worstDuplication ds = (x.excess, some x.window.startId) := by
  induction ds using List.reverseRecOn with
  | nil => exact .inl rfl
  | append_singleton ds d ih =>
    rw [worstDuplication_concat]
    split_ifs with hlt
    · refine .inr ⟨d, isWorst_concat_self fun y hy => ?_, rfl⟩
      exact UInt32.lt_of_le_of_lt (excess_le_worstDuplication hy) hlt
    · rcases ih with hnone | ⟨x, hx, hfound⟩
      · exact .inl hnone
      · rw [hfound] at hlt
        exact .inr ⟨x, hx.concat (UInt32.not_lt.mp hlt), hfound⟩

/-- Beyond any bound, the scan holds the figures of an entry. -/
theorem exists_isWorst {bound : UInt32} (h : bound < (worstDuplication ds).1) :
    ∃ x, IsWorst ds x ∧ worstDuplication ds = (x.excess, some x.window.startId) := by
  rcases worstDuplication_cases ds with hnone | hfound
  · rw [hnone] at h
    exact absurd h UInt32.not_lt_zero
  · exact hfound

end Scan

/-! ### The sentence -/

theorem toString_toNat_ne_unknown (id : UInt64) : toString id.toNat ≠ "unknown" := by
  intro h
  have hletter : 'u' ∈ Nat.toDigits 10 id.toNat := by
    rw [← Nat.toList_repr]
    change 'u' ∈ (toString id.toNat).toList
    simp [h]
  exact notMem_toDigits (by decide) _ hletter

section Sentence
variable {t : Thresholds} {e : Endpoint} {d : Delivery} {who who' : String} {n n' : UInt32}

/-- The sentence tells the packet and the number of its copies, whatever the packet is called. -/
theorem copiesSentence_inj (h : copiesSentence t e who n = copiesSentence t e who' n') :
    who = who' ∧ n = n' := by
  have hspace (k : Nat) : ' ' ∉ (toString k).toList := by
    rw [Nat.toString_eq_repr, Nat.toList_repr]
    exact notMem_toDigits (by decide) k
  have hhas : " has ".toList = " has".toList ++ [' '] := by decide
  -- the equations of a long text cost far more than its body
  delta copiesSentence at h
  rw [String.append_left_inj, String.append_left_inj] at h
  have hchars := congrArg String.toList h
  simp only [String.toList_append] at hchars
  -- the number stands behind the last space in front of what is always the same
  rw [hhas, ← List.append_assoc, ← List.append_assoc, List.append_assoc _ [' '],
    List.append_assoc _ [' '], List.singleton_append, List.singleton_append,
    append_last_separator_inj (hspace _) (hspace _), List.append_cancel_right_eq,
    List.append_cancel_left_eq] at hchars
  obtain ⟨hwho, hnumber⟩ := hchars
  exact ⟨String.toList_injective hwho,
    UInt32.toNat_inj.mp (Nat.repr_inj.mp (String.toList_injective hnumber))⟩

theorem message_tooManyCopies (s : Summary) : Rule.message t e s .tooManyCopies =
    copiesSentence t e ((s.mostCopiesId.map fun id => toString id.toNat).getD "unknown")
      s.mostCopies := by
  delta Rule.message copiesSentence
  cases s.mostCopiesId <;> rfl

/-- No other rule has a sentence like it. -/
theorem eq_tooManyCopies {s : Summary} {rule : Rule}
    (h : rule.message t e s = copiesSentence t e who n) : rule = .tooManyCopies := by
  obtain ⟨rest, hrest⟩ := Rule.exists_message t e s rule
  have hsentence : copiesSentence t e who n = Rule.opening .tooManyCopies ++
      (e.name ++ (Rule.deed .tooManyCopies ++ (who ++ (" has " ++ (toString n.toNat ++
        (" duplications. Allowed max number of duplication count: " ++
          toString t.bounds.copies.toNat)))))) := by
    delta copiesSentence
    simp only [Rule.opening, Rule.deed, String.append_assoc]
  exact Rule.eq_of_sentence (hrest.symm.trans (h.trans hsentence))

/-- The sentence is about what the scan holds in the end. -/
theorem copiesSentence_mem_findings_iff : copiesSentence t e who n ∈ findings t e d ↔
    t.bounds.copies < (worstDuplication d.duplications).1 ∧
      who = ((worstDuplication d.duplications).2.map fun id => toString id.toNat).getD "unknown" ∧
      n = (worstDuplication d.duplications).1 := by
  rw [findings_eq, List.mem_map]
  constructor
  · rintro ⟨rule, hrule, hsentence⟩
    obtain rfl := eq_tooManyCopies hsentence
    have hviolated := (List.mem_filter.mp hrule).2
    rw [message_tooManyCopies] at hsentence
    obtain ⟨hwho, hn⟩ := copiesSentence_inj hsentence
    exact ⟨of_decide_eq_true hviolated, hwho.symm, hn.symm⟩
  · rintro ⟨hlt, rfl, rfl⟩
    exact ⟨.tooManyCopies, List.mem_filter.mpr ⟨Rule.mem_all _, decide_eq_true hlt⟩,
      message_tooManyCopies _⟩

/-- The sentence names the first entry with the most copies. -/
theorem blamed_iff : copiesSentence t e who n ∈ findings t e d ↔
    ∃ x, IsWorst d.duplications x ∧ t.bounds.copies < x.excess ∧
      who = toString x.window.startId.toNat ∧ n = x.excess := by
  rw [copiesSentence_mem_findings_iff]
  constructor
  · rintro ⟨hlt, hwho, hn⟩
    obtain ⟨x, hx, hfound⟩ := exists_isWorst hlt
    rw [hfound] at hlt hwho hn
    exact ⟨x, hx, hlt, hwho, hn⟩
  · rintro ⟨x, hx, hlt, hwho, hn⟩
    obtain ⟨y, hy, hfound⟩ := exists_isWorst (lt_worstDuplication_iff.mpr ⟨x, hx.mem, hlt⟩)
    obtain rfl := hx.unique hy
    rw [hfound]
    exact ⟨hlt, hwho, hn⟩

end Sentence

/-- An endpoint is reported for the copies of a packet exactly if some packet has more of them than
the bound. The packet that is named is then the first one with the most copies, with their number,
and never an unknown one. -/
theorem blames_first_worst (t : Thresholds) (e : Endpoint) (d : Delivery) :
    ((∃ who n, copiesSentence t e who n ∈ findings t e d) ↔
      ∃ x ∈ d.duplications, t.bounds.copies < x.excess) ∧
    (∀ who n, copiesSentence t e who n ∈ findings t e d ↔
      ∃ x, IsWorst d.duplications x ∧ t.bounds.copies < x.excess ∧
        who = toString x.window.startId.toNat ∧ n = x.excess) ∧
    ∀ n, copiesSentence t e "unknown" n ∉ findings t e d := by
  refine ⟨⟨?_, ?_⟩, fun who n => blamed_iff, ?_⟩
  · rintro ⟨who, n, h⟩
    obtain ⟨x, hx, hlt, -⟩ := blamed_iff.mp h
    exact ⟨x, hx.mem, hlt⟩
  · intro h
    have hlt := lt_worstDuplication_iff.mpr h
    obtain ⟨x, hx, hfound⟩ := exists_isWorst hlt
    rw [hfound] at hlt
    exact ⟨_, _, blamed_iff.mpr ⟨x, hx, hlt, rfl, rfl⟩⟩
  · intro n h
    obtain ⟨x, -, -, hwho, -⟩ := blamed_iff.mp h
    exact toString_toNat_ne_unknown x.window.startId hwho.symm

end Switchover
