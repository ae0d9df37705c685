import Mathlib
import Switchover.Proofs.Capture.Arrivals

/-!
Accounting for what was sent. Every sequence id was received, or is missing at one edge of the flow,
or is missing inside exactly one outage, so that the counts and the outages of a delivery add up to
the number of packets sent, and tell which ids were received.
-/
namespace Switchover

/-- Whether an id lies between the two packets that bound a window. -/
def Window.Misses (w : Window) (i : UInt64) : Prop :=
  w.startId < i ∧ i < w.endId

/-- How many ids lie between the two packets that bound a window. -/
def Window.missing (w : Window) : Nat :=
  w.endId.toNat - w.startId.toNat - 1

/-- The window from the first capture of one id to that of another. -/
def Arrival.gap (a b : Arrival) : Window :=
  ⟨a.id, b.id, a.first, b.first⟩

/-- Of a list in which no two places are related, related members are the same. -/
theorem eq_of_pairwise {α : Type} {l : List α} {R : α → α → Prop}
    (h : l.Pairwise fun a b => ¬ R a b ∧ ¬ R b a) {a b : α} (ha : a ∈ l) (hb : b ∈ l)
    (hab : R a b) : a = b := by
  have heq : l.Pairwise fun a b => R a b → a = b := h.imp fun h hab => absurd hab h.1
  have hflip : l.Pairwise fun b a => R a b → a = b := h.imp fun h hab => absurd hab h.2
  exact heq.forall_of_forall_of_flip (fun _ _ _ => rfl) hflip ha hb hab

/-! ### Neighbouring ids -/

section Ids
variable {i j : UInt64}

theorem toNat_succ_of_lt (h : i < j) : (i + 1).toNat = i.toNat + 1 := by
  have hj := j.toNat_lt
  rw [UInt64.lt_iff_toNat_lt] at h
  rw [UInt64.toNat_add, UInt64.toNat_one, Nat.mod_eq_of_lt (by omega)]

theorem toNat_pred_of_lt (h : i < j) : (j - 1).toNat = j.toNat - 1 := by
  rw [UInt64.lt_iff_toNat_lt] at h
  have hone : (1 : UInt64) ≤ j := by
    rw [UInt64.le_iff_toNat_le, UInt64.toNat_one]
    omega
  rw [UInt64.toNat_sub_of_le _ _ hone, UInt64.toNat_one]

theorem toNat_pred_sub_of_lt (h : i < j) : (j - 1 - i).toNat = j.toNat - 1 - i.toNat := by
  have hle : i ≤ j - 1 := by
    rw [UInt64.lt_iff_toNat_lt] at h
    rw [UInt64.le_iff_toNat_le, toNat_pred_of_lt (UInt64.lt_iff_toNat_lt.mpr h)]
    omega
  rw [UInt64.toNat_sub_of_le _ _ hle, toNat_pred_of_lt h]

end Ids

/-! ### Outages between arrivals -/

section Gaps
variable {a b : Arrival} {l : List Arrival}

theorem outagesBetween_cons_cons : outagesBetween (a :: b :: l) =
    if a.id + 1 < b.id then a.gap b :: outagesBetween (b :: l) else outagesBetween (b :: l) := rfl

theorem succ_lt_iff (h : a.id < b.id) : a.id + 1 < b.id ↔ a.id.toNat + 2 ≤ b.id.toNat := by
  rw [UInt64.lt_iff_toNat_lt, toNat_succ_of_lt h]
  omega

theorem mem_outagesBetween_cons_cons {w : Window} : w ∈ outagesBetween (a :: b :: l) ↔
    a.id + 1 < b.id ∧ w = a.gap b ∨ w ∈ outagesBetween (b :: l) := by
  rw [outagesBetween_cons_cons]
  split_ifs with h <;> simp [h]

/-- A window between two of some arrivals, with an id in between and no arrival there. -/
structure Between (l : List Arrival) (w : Window) (a b : Arrival) : Prop where
  left_mem : a ∈ l
  right_mem : b ∈ l
  eq_gap : w = a.gap b
  two_le : a.id.toNat + 2 ≤ b.id.toNat
  outside : ∀ c ∈ l, c.id ≤ a.id ∨ b.id ≤ c.id

theorem exists_between (hl : l.Pairwise (·.id < ·.id)) {w : Window} (hw : w ∈ outagesBetween l) :
    ∃ a b, Between l w a b := by
  induction l with
  | nil => cases hw
  | cons a l ih =>
    cases l with
    | nil => cases hw
    | cons b l =>
      obtain ⟨ha, hbl⟩ := List.pairwise_cons.mp hl
      have hab := ha b (List.mem_cons_self ..)
      rcases mem_outagesBetween_cons_cons.mp hw with ⟨hgap, rfl⟩ | hw
      · refine ⟨a, b, by simp, by simp, rfl, (succ_lt_iff hab).mp hgap, fun c hc => ?_⟩
        rcases List.mem_cons.mp hc with rfl | hc
        · exact .inl (UInt64.le_refl _)
        rcases List.mem_cons.mp hc with rfl | hc
        · exact .inr (UInt64.le_refl _)
        · have := List.rel_of_pairwise_cons hbl hc
          grind
      · obtain ⟨c, d, hc, hd, heq, htwo, hout⟩ := ih hbl hw
        refine ⟨c, d, by simp [hc], by simp [hd], heq, htwo, fun x hx => ?_⟩
        rcases List.mem_cons.mp hx with rfl | hx
        · have := ha c hc
          grind
        · exact hout x hx

/-- The outages are listed in the order of their ids. Two of them share at most a bound. -/
theorem pairwise_outagesBetween (hl : l.Pairwise (·.id < ·.id)) :
    (outagesBetween l).Pairwise fun v w => v.endId ≤ w.startId := by
  induction l with
  | nil => exact List.Pairwise.nil
  | cons a l ih =>
    cases l with
    | nil => exact List.Pairwise.nil
    | cons b l =>
      have hbl := (List.pairwise_cons.mp hl).2
      rw [outagesBetween_cons_cons]
      split_ifs
      · refine List.pairwise_cons.mpr ⟨fun w hw => ?_, ih hbl⟩
        obtain ⟨c, d, hc, -, rfl, -, -⟩ := exists_between hbl hw
        rcases List.mem_cons.mp hc with rfl | hc
        · exact UInt64.le_refl _
        · have := List.rel_of_pairwise_cons hbl hc
          simp only [Arrival.gap]
          grind
      · exact ih hbl

/-- An id between the arrivals that is not theirs is missing in an outage. -/
theorem exists_misses (hl : l.Pairwise (·.id < ·.id)) {i : UInt64} (hlow : ∃ c ∈ l, c.id ≤ i)
    (hhigh : ∃ c ∈ l, i ≤ c.id) (hnone : ∀ c ∈ l, c.id ≠ i) :
    ∃ w ∈ outagesBetween l, w.Misses i := by
  induction l with
  | nil => simp at hlow
  | cons a l ih =>
    obtain ⟨ha, hl'⟩ := List.pairwise_cons.mp hl
    have hai := hnone a (List.mem_cons_self ..)
    have hhigh' : ∃ c ∈ l, i ≤ c.id := by
      obtain ⟨c, hc, hic⟩ := hhigh
      obtain ⟨x, hx, hxi⟩ := hlow
      rcases List.mem_cons.mp hc with rfl | hc
      · rcases List.mem_cons.mp hx with rfl | hx
        · grind
        · have := ha x hx
          grind
      · exact ⟨c, hc, hic⟩
    cases l with
    | nil => simp at hhigh'
    | cons b l =>
      have hab := ha b (List.mem_cons_self ..)
      by_cases hbi : b.id ≤ i
      · obtain ⟨w, hw, hwi⟩ := ih hl' ⟨b, List.mem_cons_self .., hbi⟩ hhigh'
          fun c hc => hnone c (List.mem_cons_of_mem a hc)
        exact ⟨w, mem_outagesBetween_cons_cons.mpr (.inr hw), hwi⟩
      · -- only `a` comes before the id
        have hle : a.id ≤ i := by
          obtain ⟨x, hx, hxi⟩ := hlow
          rcases List.mem_cons.mp hx with rfl | hx
          · exact hxi
          · have := ha x hx
            grind
        have hmiss : (a.gap b).Misses i := by
          simp only [Window.Misses, Arrival.gap]
          grind
        refine ⟨a.gap b, mem_outagesBetween_cons_cons.mpr (.inl ⟨?_, rfl⟩), hmiss⟩
        rw [succ_lt_iff hab]
        have hlo := UInt64.lt_iff_toNat_lt.mp hmiss.1
        have hhi := UInt64.lt_iff_toNat_lt.mp hmiss.2
        simp only [Arrival.gap] at hlo hhi
        omega

/-- The arrivals and the ids missing in between are all ids from the first arrival to the last. -/
theorem length_add_missing (hl : (a :: l).Pairwise (·.id < ·.id)) {z : Arrival}
    (hz : z ∈ (a :: l).getLast?) :
    (a :: l).length + ((outagesBetween (a :: l)).map Window.missing).sum + a.id.toNat =
      z.id.toNat + 1 := by
  induction l generalizing a with
  | nil =>
    obtain rfl : a = z := by simpa using hz
    simp [outagesBetween, Nat.add_comm]
  | cons b l ih =>
    obtain ⟨ha, hl'⟩ := List.pairwise_cons.mp hl
    have hab := ha b (List.mem_cons_self ..)
    have hrest := ih hl' (by simpa [List.getLast?_cons_cons] using hz)
    have hlt := UInt64.lt_iff_toNat_lt.mp hab
    rw [outagesBetween_cons_cons, List.length_cons]
    split_ifs with hgap
    · have := (succ_lt_iff hab).mp hgap
      rw [List.map_cons, List.sum_cons, Window.missing, Arrival.gap]
      dsimp only
      omega
    · have := mt (succ_lt_iff hab).mpr hgap
      omega

end Gaps

/-! ### The edges of the flow -/

/-- What became of a sequence id. -/
inductive Fate where
  | received
  | before
  | after
  | inside (w : Window)

namespace Delivery

/-- Whether an id had some fate, by a delivery and the capture that it was made from. -/
def Gives (d : Delivery) (capture : List Observation) (i : UInt64) : Fate → Prop
  | .received => ∃ o ∈ capture, o.id = i
  | .before => i < d.missingBefore
  | .after => d.sent - 1 - d.missingAfter < i
  | .inside w => w ∈ d.outages ∧ w.Misses i

/-- Whether a delivery, read on its own, says that an id was received. -/
def Shows (d : Delivery) (i : UInt64) : Prop :=
  d.received ≠ 0 ∧ d.missingBefore ≤ i ∧ i < d.sent ∧ i ≤ d.sent - 1 - d.missingAfter ∧
    ∀ w ∈ d.outages, ¬ w.Misses i

/-- Whether a delivery accounts for all that was sent. -/
structure Accounts (d : Delivery) (sent : UInt64) (capture : List Observation) : Prop where
  sent_eq : d.sent = sent
  /-- Each id had one fate. -/
  fate : ∀ i < sent, ∃! f, d.Gives capture i f
  /-- An outage is bounded by two received ids with others in between. -/
  bounds : ∀ w ∈ d.outages, w.startId.toNat + 2 ≤ w.endId.toNat ∧ w.endId < sent ∧
    (∃ o ∈ capture, o.id = w.startId) ∧ ∃ o ∈ capture, o.id = w.endId
  /-- The outages are listed in the order of their ids. -/
  order : d.outages.Pairwise fun v w => v.startId < w.startId ∧ v.endId ≤ w.startId
  /-- The counts add up. -/
  total : d.received.toNat + d.missingBefore.toNat + d.missingAfter.toNat +
    (d.outages.map Window.missing).sum = sent.toNat

section OfCapture
variable {sent : UInt64} {capture : List Observation}

/-- The first and the last arrival of a capture. -/
structure Edges (sent : UInt64) (capture : List Observation) (a z : Arrival) : Prop where
  first_mem : a ∈ Arrival.ofCapture sent capture
  last_mem : z ∈ Arrival.ofCapture sent capture
  between : ∀ c ∈ Arrival.ofCapture sent capture, a.id ≤ c.id ∧ c.id ≤ z.id
  missingBefore_eq : (ofCapture sent capture).missingBefore = a.id
  missingAfter_eq : (ofCapture sent capture).missingAfter = sent - 1 - z.id
  length_eq : (Arrival.ofCapture sent capture).length +
    ((ofCapture sent capture).outages.map Window.missing).sum + a.id.toNat = z.id.toNat + 1

theorem exists_edges (h : ∃ o ∈ capture, o.id < sent) : ∃ a z, Edges sent capture a z := by
  obtain ⟨o, ho, hlt⟩ := h
  obtain ⟨c, hc, -⟩ := Arrival.exists_mem_ofCapture.mpr ⟨hlt, o, ho, rfl⟩
  have hpair : (Arrival.ofCapture sent capture).Pairwise (·.id < ·.id) := Arrival.pairwise_ofCapture
  cases hl : Arrival.ofCapture sent capture with
  | nil => rw [hl] at hc; cases hc
  | cons a l =>
    obtain ⟨z, hz⟩ : ∃ z, (a :: l).getLast? = some z := ⟨_, List.getLast?_eq_some_getLast (by simp)⟩
    rw [hl] at hpair
    refine ⟨a, z, by simp [hl], ?_, fun c hc => ⟨?_, ?_⟩, by simp [ofCapture, hl], ?_, ?_⟩
    · rw [hl]
      exact List.mem_of_getLast? hz
    · rw [hl] at hc
      rcases List.mem_cons.mp hc with rfl | hc
      · exact UInt64.le_refl _
      · exact UInt64.le_of_lt (List.rel_of_pairwise_cons hpair hc)
    · obtain ⟨init, hinit⟩ := List.getLast?_eq_some_iff.mp hz
      rw [hl, hinit] at hc
      rw [hinit] at hpair
      rcases List.mem_append.mp hc with hc | hc
      · exact UInt64.le_of_lt ((List.pairwise_append.mp hpair).2.2 c hc z (by simp))
      · obtain rfl := List.mem_singleton.mp hc
        exact UInt64.le_refl _
    · simp [ofCapture, hl, hz]
    · rw [ofCapture, hl]
      exact length_add_missing hpair hz

namespace Edges
variable {a z : Arrival}

theorem last_lt (h : Edges sent capture a z) : z.id < sent :=
  (Arrival.mem_ofCapture.mp h.last_mem).1

theorem last_eq (h : Edges sent capture a z) :
    (ofCapture sent capture).sent - 1 - (ofCapture sent capture).missingAfter = z.id := by
  rw [h.missingAfter_eq]
  simp [ofCapture]

theorem toNat_missingAfter (h : Edges sent capture a z) :
    (ofCapture sent capture).missingAfter.toNat = sent.toNat - 1 - z.id.toNat := by
  rw [h.missingAfter_eq, toNat_pred_sub_of_lt h.last_lt]

theorem total (h : Edges sent capture a z) :
    (Arrival.ofCapture sent capture).length + (ofCapture sent capture).missingBefore.toNat +
      (ofCapture sent capture).missingAfter.toNat +
      ((ofCapture sent capture).outages.map Window.missing).sum = sent.toNat := by
  have hlast := UInt64.lt_iff_toNat_lt.mp h.last_lt
  have hlength := h.length_eq
  rw [h.missingBefore_eq, h.toNat_missingAfter]
  omega

theorem toNat_received (h : Edges sent capture a z) :
    (ofCapture sent capture).received.toNat = (Arrival.ofCapture sent capture).length := by
  have htotal := h.total
  have hsent := sent.toNat_lt
  have hlt : (Arrival.ofCapture sent capture).length < 2 ^ 64 := by omega
  exact UInt64.toNat_ofNat_of_lt' hlt

end Edges

/-- An outage of a delivery lies between two arrivals. -/
theorem exists_between {w : Window} (hw : w ∈ (ofCapture sent capture).outages) :
    ∃ a b, Between (Arrival.ofCapture sent capture) w a b :=
  Switchover.exists_between Arrival.pairwise_ofCapture hw

theorem pairwise_outages : (ofCapture sent capture).outages.Pairwise
    fun v w => v.startId < w.startId ∧ v.endId ≤ w.startId := by
  refine (pairwise_outagesBetween Arrival.pairwise_ofCapture).imp_of_mem fun hv _ hvw => ⟨?_, hvw⟩
  obtain ⟨a, b, -, -, rfl, htwo, -⟩ := exists_between hv
  rw [UInt64.lt_iff_toNat_lt]
  rw [UInt64.le_iff_toNat_le] at hvw
  simp only [Arrival.gap] at *
  omega

/-- No id is missing in two outages. -/
theorem eq_of_misses {v w : Window} {i : UInt64} (hv : v ∈ (ofCapture sent capture).outages)
    (hw : w ∈ (ofCapture sent capture).outages) (hvi : v.Misses i) (hwi : w.Misses i) : v = w := by
  refine eq_of_pairwise (R := fun v w => v.Misses i ∧ w.Misses i) ?_ hv hw ⟨hvi, hwi⟩
  refine pairwise_outages.imp fun h => ?_
  simp only [Window.Misses]
  grind

theorem exists_fate (h : ∃ o ∈ capture, o.id < sent) (i : UInt64) :
    ∃ f, (ofCapture sent capture).Gives capture i f := by
  obtain ⟨a, z, he⟩ := exists_edges h
  by_cases hrec : ∃ o ∈ capture, o.id = i
  · exact ⟨.received, hrec⟩
  by_cases hbefore : i < a.id
  · exact ⟨.before, by rw [Gives, he.missingBefore_eq]; exact hbefore⟩
  by_cases hafter : z.id < i
  · exact ⟨.after, by rw [Gives, he.last_eq]; exact hafter⟩
  · obtain ⟨w, hw, hwi⟩ := exists_misses Arrival.pairwise_ofCapture
      ⟨a, he.first_mem, UInt64.not_lt.mp hbefore⟩ ⟨z, he.last_mem, UInt64.not_lt.mp hafter⟩
      fun c hc hci => hrec (Arrival.exists_mem_ofCapture.mp ⟨c, hc, hci⟩).2
    exact ⟨.inside w, hw, hwi⟩

/-- What lies between the edges and was received is in no outage. -/
theorem not_misses {i : UInt64} (hrec : ∃ o ∈ capture, o.id = i) (hi : i < sent) {w : Window}
    (hw : w ∈ (ofCapture sent capture).outages) : ¬ w.Misses i := by
  obtain ⟨c, hc, rfl⟩ := Arrival.exists_mem_ofCapture.mpr ⟨hi, hrec⟩
  obtain ⟨a, b, -, -, rfl, -, hout⟩ := exists_between hw
  rintro ⟨hlow, hhigh⟩
  simp only [Arrival.gap] at hlow hhigh
  rcases hout c hc with hle | hle <;> grind

theorem fate_unique {i : UInt64} (h : ∃ o ∈ capture, o.id < sent) (hi : i < sent) {f g : Fate}
    (hf : (ofCapture sent capture).Gives capture i f)
    (hg : (ofCapture sent capture).Gives capture i g) : f = g := by
  obtain ⟨a, z, he⟩ := exists_edges h
  have hedge : ∀ w ∈ (ofCapture sent capture).outages, w.Misses i → a.id < i ∧ i < z.id := by
    rintro w hw ⟨hlow, hhigh⟩
    obtain ⟨b, c, hb, hc, rfl, -, -⟩ := exists_between hw
    have := (he.between b hb).1
    have := (he.between c hc).2
    simp only [Arrival.gap] at hlow hhigh
    grind
  have hrec : (∃ o ∈ capture, o.id = i) → a.id ≤ i ∧ i ≤ z.id := by
    intro hrec
    obtain ⟨c, hc, rfl⟩ := Arrival.exists_mem_ofCapture.mpr ⟨hi, hrec⟩
    exact he.between c hc
  have haz := (he.between a he.first_mem).2
  rw [← he.missingBefore_eq] at hedge hrec haz
  rw [← he.last_eq] at hedge hrec haz
  -- the edges, and what lies between them, tell apart all fates but those in between
  rcases f with _ | _ | _ | v <;> rcases g with _ | _ | _ | w <;> simp only [Gives] at hf hg
  case inside.inside => rw [eq_of_misses hf.1 hg.1 hf.2 hg.2]
  case received.inside => exact absurd hg.2 (not_misses hf hi hg.1)
  case inside.received => exact absurd hf.2 (not_misses hg hi hf.1)
  all_goals grind

theorem exists_bounds {w : Window} (hw : w ∈ (ofCapture sent capture).outages) :
    w.startId.toNat + 2 ≤ w.endId.toNat ∧ w.endId < sent ∧
      (∃ o ∈ capture, o.id = w.startId) ∧ ∃ o ∈ capture, o.id = w.endId := by
  obtain ⟨a, b, ha, hb, rfl, htwo, -⟩ := exists_between hw
  obtain ⟨-, hrec⟩ := Arrival.exists_mem_ofCapture.mp ⟨a, ha, rfl⟩
  obtain ⟨hlt, hrec'⟩ := Arrival.exists_mem_ofCapture.mp ⟨b, hb, rfl⟩
  exact ⟨htwo, hlt, hrec, hrec'⟩

/-- A capture of other traffic only shows nothing but the number of packets sent. -/
theorem ofCapture_of_foreign (h : ∀ o ∈ capture, ¬ o.id < sent) :
    ofCapture sent capture = ⟨sent, 0, [], [], 0, 0⟩ := by
  have hnil : Arrival.ofCapture sent capture = [] := by
    refine List.eq_nil_iff_forall_not_mem.mpr fun c hc => ?_
    obtain ⟨hlt, o, ho, hoc⟩ := Arrival.exists_mem_ofCapture.mp ⟨c, hc, rfl⟩
    exact h o ho (hoc ▸ hlt)
  rw [ofCapture, hnil]; rfl

theorem accounts_of_received (h : ∃ o ∈ capture, o.id < sent) :
    (ofCapture sent capture).Accounts sent capture := by
  obtain ⟨a, z, he⟩ := exists_edges h
  refine ⟨rfl, fun i hi => ?_, fun w hw => exists_bounds hw, pairwise_outages, ?_⟩
  · obtain ⟨f, hf⟩ := exists_fate h i
    exact ⟨f, hf, fun g hg => fate_unique h hi hg hf⟩
  · rw [he.toNat_received]
    exact he.total

theorem shows_iff (i : UInt64) : (ofCapture sent capture).Shows i ↔
    i < sent ∧ ∃ o ∈ capture, o.id = i := by
  constructor
  · rintro ⟨hrec, hbefore, hi, hafter, hin⟩
    refine ⟨hi, ?_⟩
    by_cases h : ∃ o ∈ capture, o.id < sent
    · obtain ⟨f, hf⟩ := exists_fate h i
      cases f with
      | received => exact hf
      | before => exact absurd hf (UInt64.not_lt.mpr hbefore)
      | after => exact absurd hf (UInt64.not_lt.mpr hafter)
      | inside w => exact absurd hf.2 (hin w hf.1)
    · push Not at h
      rw [ofCapture_of_foreign h] at hrec
      exact absurd rfl hrec
  · rintro ⟨hi, hrec⟩
    obtain ⟨c, hc, rfl⟩ := Arrival.exists_mem_ofCapture.mpr ⟨hi, hrec⟩
    obtain ⟨o, ho, hoc⟩ := hrec
    obtain ⟨a, z, he⟩ := exists_edges ⟨o, ho, hoc ▸ hi⟩
    refine ⟨fun hzero => ?_, ?_, hi, ?_, fun w hw => not_misses ⟨o, ho, hoc⟩ hi hw⟩
    · have hpos := List.length_pos_of_mem hc
      rw [← he.toNat_received, hzero] at hpos
      exact absurd hpos (by decide)
    · rw [he.missingBefore_eq]
      exact (he.between c hc).1
    · rw [he.last_eq]
      exact (he.between c hc).2

/-- A delivery accounts for all that was sent and tells which ids were received. Where nothing was,
it counts nothing as lost at the edges. -/
theorem accounts_ofCapture (sent : UInt64) (capture : List Observation) :
    ((∃ o ∈ capture, o.id < sent) → (ofCapture sent capture).Accounts sent capture) ∧
      (∀ i, (ofCapture sent capture).Shows i ↔ i < sent ∧ ∃ o ∈ capture, o.id = i) ∧
      ((∀ o ∈ capture, ¬ o.id < sent) → ofCapture sent capture = ⟨sent, 0, [], [], 0, 0⟩) :=
  ⟨accounts_of_received, shows_iff, ofCapture_of_foreign⟩

/-- Two outages that share a bound, a packet sent twice, and one of other traffic. -/
theorem accounts_ofCapture_gaps :
    let capture : List Observation := [⟨5, 0.5⟩, ⟨2, 0.2⟩, ⟨7, 0.7⟩, ⟨2, 0.25⟩, ⟨12, 1.2⟩]
    (∃ o ∈ capture, o.id < 10) ∧ (Delivery.ofCapture 10 capture).Accounts 10 capture := by
  intro capture
  have h : ∃ o ∈ capture, o.id < 10 := by decide
  exact ⟨h, (accounts_ofCapture 10 capture).1 h⟩

end OfCapture

end Delivery

end Switchover
