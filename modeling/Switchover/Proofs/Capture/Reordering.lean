import Mathlib
import Switchover.Proofs.Capture.Tally

/-!
Captures in another order. Of the captures of one id a delivery keeps the least time, the greatest
time and their number, and none of these depends on which capture came first. The arrivals are
listed by id, whatever came first. So two captures of the same packets make the same delivery in
whatever order they list them, and whatever other traffic they list in between.
-/
namespace Switchover

namespace Arrival
variable {a b : Arrival} {l l' : List Observation}

/-! ### The captures of one id in another order -/

theorem Spans.perm (h : a.Spans l) (hperm : l.Perm l') : a.Spans l' := by
  obtain ⟨⟨o, ho, hfirst⟩, hle, ⟨p, hp, hlast⟩, hge⟩ := h
  exact ⟨⟨o, hperm.mem_iff.mp ho, hfirst⟩, fun q hq => hle q (hperm.mem_iff.mpr hq),
    ⟨p, hperm.mem_iff.mp hp, hlast⟩, fun q hq => hge q (hperm.mem_iff.mpr hq)⟩

/-- Some captures have one least time and one greatest. -/
theorem Spans.unique (ha : a.Spans l) (hb : b.Spans l) : a.first = b.first ∧ a.last = b.last := by
  obtain ⟨⟨o, ho, hfirst⟩, hle, ⟨p, hp, hlast⟩, hge⟩ := ha
  obtain ⟨⟨o', ho', hfirst'⟩, hle', ⟨p', hp', hlast'⟩, hge'⟩ := hb
  constructor
  · refine timeRank_injective (Int.le_antisymm ?_ ?_)
    · exact hfirst' ▸ hle o' ho'
    · exact hfirst ▸ hle' o ho
  · refine timeRank_injective (Int.le_antisymm ?_ ?_)
    · exact hlast ▸ hge' p hp
    · exact hlast' ▸ hge p' hp'

theorem gather_filter_perm (hperm : l.Perm l') (h : ∀ o ∈ l, Plain o.time) (i : UInt64) :
    gather (l.filter (·.id = i)) = gather (l'.filter (·.id = i)) := by
  have hown : (l.filter (·.id = i)).Perm (l'.filter (·.id = i)) := hperm.filter _
  by_cases hnil : l.filter (·.id = i) = []
  · rw [hnil] at hown ⊢
    rw [List.nil_perm.mp hown]
  · have hnil' : l'.filter (·.id = i) ≠ [] := fun heq => hnil (List.perm_nil.mp (heq ▸ hown))
    obtain ⟨a, ha⟩ := exists_gather hnil
    obtain ⟨b, hb⟩ := exists_gather hnil'
    have hspans : a.Spans (l.filter (·.id = i)) :=
      spans_gather ha fun o ho => h o (List.mem_filter.mp ho).1
    have hspans' : b.Spans (l'.filter (·.id = i)) :=
      spans_gather hb fun o ho => h o (hperm.mem_iff.mpr (List.mem_filter.mp ho).1)
    have hid : a.id = b.id := (id_gather ha).trans (id_gather hb).symm
    obtain ⟨hfirst, hlast⟩ := (hspans.perm hown).unique hspans'
    have hcopies : a.copies = b.copies := by
      rw [copies_gather ha, copies_gather hb, hown.length_eq]
    rw [ha, hb]
    cases a; cases b
    simp_all

/-! ### Whole captures in another order -/

section Capture
variable {sent : UInt64} {capture capture' : List Observation}

/-- Other traffic takes no part in the arrivals. -/
theorem ofCapture_filter (sent : UInt64) (capture : List Observation) :
    ofCapture sent (capture.filter (·.id < sent)) = ofCapture sent capture := by
  rw [ofCapture, ofCapture, List.filter_filter]
  simp only [Bool.and_self]

theorem ofCapture_perm (hperm : capture.Perm capture') (h : ∀ o ∈ capture, Plain o.time) :
    ofCapture sent capture = ofCapture sent capture' := by
  refine eq_of_pairwise_lt pairwise_ofCapture pairwise_ofCapture fun a => ?_
  rw [mem_ofCapture, mem_ofCapture, gather_filter_perm hperm h]

end Capture

end Arrival

namespace Delivery

/-- The packets sent may have been captured in any order, and along with any other traffic, for the
same delivery with the same times. Their times have to be numbers, and none of them `-0`; those of
other traffic may be anything. -/
theorem ofCapture_reordered {sent : UInt64} {capture capture' : List Observation}
    (h : ∀ o ∈ capture, o.id < sent → Plain o.time)
    (hperm : (capture.filter (·.id < sent)).Perm (capture'.filter (·.id < sent))) :
    ofCapture sent capture = ofCapture sent capture' := by
  have hplain : ∀ o ∈ capture.filter (·.id < sent), Plain o.time := fun o ho => by
    obtain ⟨ho, hlt⟩ := List.mem_filter.mp ho
    exact h o ho (decide_eq_true_iff.mp hlt)
  have harrivals : Arrival.ofCapture sent capture = Arrival.ofCapture sent capture' := by
    rw [← Arrival.ofCapture_filter sent capture, ← Arrival.ofCapture_filter sent capture']
    exact Arrival.ofCapture_perm hperm hplain
  rw [ofCapture, ofCapture, harrivals]

/-- One capture goes back in time, with two ids captured again and other traffic in between, some of
it at no time at all. -/
theorem ofCapture_reordered_back :
    let capture : List Observation :=
      [⟨4, 1.0⟩, ⟨7, 0.0 / 0.0⟩, ⟨1, 0.5⟩, ⟨4, 0.75⟩, ⟨0, 0.25⟩, ⟨1, -0.5⟩, ⟨9, 2.0⟩]
    let capture' : List Observation := [⟨1, -0.5⟩, ⟨0, 0.25⟩, ⟨4, 0.75⟩, ⟨1, 0.5⟩, ⟨4, 1.0⟩]
    (∀ o ∈ capture, o.id < 6 → Plain o.time) ∧
      (capture.filter (·.id < 6)).Perm (capture'.filter (·.id < 6)) ∧
      ofCapture 6 capture = ofCapture 6 capture' := by
  intro capture capture'
  have h : ∀ o ∈ capture, o.id < 6 → Plain o.time := by decide
  have hperm : (capture.filter (·.id < 6)).Perm (capture'.filter (·.id < 6)) :=
    List.reverse_perm capture'
  exact ⟨h, hperm, ofCapture_reordered h hperm⟩

/-- Of `0` and `-0` the first to come is kept. -/
example : (ofCapture 1 [⟨0, 0.0⟩, ⟨0, -0.0⟩]).duplications.map (·.window.startTime.toBits) ≠
    (ofCapture 1 [⟨0, -0.0⟩, ⟨0, 0.0⟩]).duplications.map (·.window.startTime.toBits) := by
  decide

end Delivery

end Switchover
