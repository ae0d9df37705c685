import Mathlib
import Switchover.Proofs.Capture.Account

/-!
What a delivery tells of a capture. A delivery is made from many captures with their times, but
apart from the times it only depends on how often each id below the number of packets sent was
captured: which ids arrived, between which of them others are missing, how many are missing at
either edge, and which ids arrived more than once, and how often.
-/
namespace Switchover

/-- The ids of some packets numbered from zero, in the order in which they are sent. -/
def idsBelow (sent : Nat) : List UInt64 :=
  (List.range sent).map UInt64.ofNat

theorem idsBelow_succ (n : Nat) : idsBelow (n + 1) = idsBelow n ++ [UInt64.ofNat n] := by
  rw [idsBelow, List.range_succ, List.map_append]
  rfl

@[simp] theorem length_idsBelow (n : Nat) : (idsBelow n).length = n := by
  simp [idsBelow]

theorem mem_idsBelow {sent i : UInt64} : i ∈ idsBelow sent.toNat ↔ i < sent := by
  have hsent := sent.toNat_lt
  rw [idsBelow, List.mem_map, UInt64.lt_iff_toNat_lt]
  constructor
  · rintro ⟨n, hn, rfl⟩
    have hlt := List.mem_range.mp hn
    rwa [UInt64.toNat_ofNat_of_lt' (by rw [UInt64.size]; omega)]
  · intro hi
    exact ⟨i.toNat, List.mem_range.mpr hi, UInt64.ofNat_toNat⟩

theorem pairwise_idsBelow {sent : Nat} (h : sent ≤ UInt64.size) :
    (idsBelow sent).Pairwise (· < ·) := by
  refine List.pairwise_map.mpr (List.pairwise_lt_range.imp_of_mem fun hm hn hlt => ?_)
  have hn := List.mem_range.mp hn
  rw [UInt64.lt_iff_toNat_lt, UInt64.toNat_ofNat_of_lt' (by omega),
    UInt64.toNat_ofNat_of_lt' (by omega)]
  exact hlt

theorem nodup_of_pairwise_lt {l : List UInt64} (h : l.Pairwise (· < ·)) : l.Nodup :=
  h.imp fun hlt => UInt64.ne_of_lt hlt

/-- Lists whose ids ascend are the same if they have the same members. -/
theorem eq_of_pairwise_lt {α : Type} {f : α → UInt64} {l m : List α}
    (hl : l.Pairwise (f · < f ·)) (hm : m.Pairwise (f · < f ·)) (h : ∀ a, a ∈ l ↔ a ∈ m) :
    l = m := by
  have hnodup : ∀ l : List α, l.Pairwise (f · < f ·) → l.Nodup := fun l hl =>
    (nodup_of_pairwise_lt (List.pairwise_map.mpr hl)).of_map f
  refine List.Perm.eq_of_pairwise (fun a b _ _ hab hba => ?_) hl hm
    ((List.perm_ext_iff_of_nodup (hnodup l hl) (hnodup m hm)).mpr h)
  exact absurd hba (UInt64.lt_asymm hab)

theorem count_idsBelow {sent i : UInt64} (hi : i < sent) : (idsBelow sent.toNat).count i = 1 :=
  List.count_eq_one_of_mem (nodup_of_pairwise_lt (pairwise_idsBelow sent.toNat_lt.le))
    (mem_idsBelow.mpr hi)

/-! ### How often an id was captured -/

/-- How often a capture holds an id. -/
def copiesIn (capture : List Observation) (i : UInt64) : Nat :=
  capture.countP (·.id = i)

theorem copiesIn_pos {capture : List Observation} {i : UInt64} :
    0 < copiesIn capture i ↔ ∃ o ∈ capture, o.id = i := by
  simp [copiesIn, List.countP_pos_iff]

/-- The ids and the further copies of a duplication, without its times. -/
def Duplication.figures (x : Duplication) : UInt64 × UInt64 × Nat :=
  (x.window.startId, x.window.endId, x.excess.toNat)

namespace Arrival

theorem copies_gather {l : List Observation} {a : Arrival} (h : gather l = some a) :
    a.copies = UInt32.ofNat l.length := by
  induction l using List.reverseRecOn generalizing a with
  | nil => cases h
  | append_singleton l o ih =>
    rw [gather_concat] at h
    cases hg : gather l with
    | none =>
      rw [hg] at h
      obtain rfl := Option.some.inj h
      cases l with
      | nil => rfl
      | cons p l => cases hg
    | some b =>
      rw [hg] at h
      obtain rfl := Option.some.inj h
      rw [List.length_append, List.length_singleton, UInt32.ofNat_add, ← ih hg]
      rfl

section OfCapture
variable {sent : UInt64} {capture : List Observation} {a : Arrival}

/-- Where no id was captured too often to be counted, an arrival counts the captures of its id. -/
theorem toNat_copies (h : ∀ i < sent, copiesIn capture i < UInt32.size)
    (ha : a ∈ ofCapture sent capture) : a.copies.toNat = copiesIn capture a.id := by
  obtain ⟨hlt, hg⟩ := mem_ofCapture.mp ha
  rw [copies_gather hg, ← List.countP_eq_length_filter]
  exact UInt32.toNat_ofNat_of_lt' (h a.id hlt)

theorem map_figures_duplication? (h : ∀ i < sent, copiesIn capture i < UInt32.size)
    (ha : a ∈ ofCapture sent capture) : a.duplication?.map Duplication.figures =
      if 1 < copiesIn capture a.id then some (a.id, a.id, copiesIn capture a.id - 1) else none := by
  have hcopies := toNat_copies h ha
  have hone : (1 : UInt32).toNat = 1 := rfl
  have hlt : 1 < a.copies ↔ 1 < copiesIn capture a.id := by
    rw [UInt32.lt_iff_toNat_lt, hcopies, hone]
  by_cases hmany : 1 < a.copies
  · have hle : (1 : UInt32) ≤ a.copies := UInt32.le_of_lt hmany
    simp only [duplication?, Duplication.figures, if_pos hmany, if_pos (hlt.mp hmany),
      Option.map_some, UInt32.toNat_sub_of_le _ _ hle, hcopies, hone]
  · simp only [duplication?, if_neg hmany, if_neg (mt hlt.mpr hmany), Option.map_none]

theorem map_id_ofCapture : (ofCapture sent capture).map (·.id) =
    (idsBelow sent.toNat).filter (0 < copiesIn capture ·) := by
  refine eq_of_pairwise_lt (List.pairwise_map.mpr pairwise_ofCapture)
    ((pairwise_idsBelow sent.toNat_lt.le).filter _) fun i => ?_
  rw [List.mem_map, exists_mem_ofCapture, List.mem_filter, mem_idsBelow, decide_eq_true_iff,
    copiesIn_pos]

end OfCapture

end Arrival

/-! ### What a delivery tells -/

/-- Whether an id of the packets sent arrived, by how often each id was captured. -/
def Arrived (sent : UInt64) (copies : UInt64 → Nat) (i : UInt64) : Prop :=
  i < sent ∧ 0 < copies i

/-- Whether two ids arrived and all ids between them, one at least, did not. -/
@[mk_iff]
structure Gap (sent : UInt64) (copies : UInt64 → Nat) (a b : UInt64) : Prop where
  left : Arrived sent copies a
  right : Arrived sent copies b
  two_le : a.toNat + 2 ≤ b.toNat
  lost : ∀ i, a < i → i < b → ¬ Arrived sent copies i

theorem exists_id_between {a b : UInt64} (h : a.toNat + 2 ≤ b.toNat) : ∃ i, a < i ∧ i < b := by
  have hnext : (a + 1).toNat = a.toNat + 1 :=
    toNat_succ_of_lt (j := b) (UInt64.lt_iff_toNat_lt.mpr (by omega))
  refine ⟨a + 1, ?_, ?_⟩ <;> rw [UInt64.lt_iff_toNat_lt, hnext] <;> omega

/-- Whether a delivery tells how often each id of the packets sent was captured. -/
structure Delivery.Tells (d : Delivery) (sent : UInt64) (copies : UInt64 → Nat) : Prop where
  sent_eq : d.sent = sent
  /-- The ids received. -/
  received_eq : d.received.toNat = ((idsBelow sent.toNat).filter (0 < copies ·)).length
  shows_iff : ∀ i, d.Shows i ↔ Arrived sent copies i
  /-- The outages are the gaps, each listed once, in the order of their ids. -/
  gap_iff : ∀ a b, (∃ w ∈ d.outages, w.startId = a ∧ w.endId = b) ↔ Gap sent copies a b
  order : d.outages.Pairwise fun v w => v.startId < w.startId ∧ v.endId ≤ w.startId
  /-- The ids before the first one that arrived, and none if nothing did. -/
  before_iff : ∀ n, n < d.missingBefore.toNat ↔
    (∃ i, Arrived sent copies i) ∧ ∀ i, Arrived sent copies i → n < i.toNat
  /-- The ids behind the last one that arrived, and none if nothing did. -/
  after_iff : ∀ n, n < d.missingAfter.toNat ↔
    (∃ i, Arrived sent copies i) ∧ ∀ i, Arrived sent copies i → i.toNat + n + 1 < sent.toNat
  /-- The ids that arrived more than once, with the number of further copies. -/
  duplications_eq : d.duplications.map Duplication.figures =
    ((idsBelow sent.toNat).filter (1 < copies ·)).map fun i => (i, i, copies i - 1)

namespace Delivery

/-- What a delivery tells of ids that were not sent means nothing. -/
theorem Tells.congr {d : Delivery} {sent : UInt64} {copies copies' : UInt64 → Nat}
    (h : d.Tells sent copies) (hcopies : ∀ i < sent, copies i = copies' i) :
    d.Tells sent copies' := by
  have harrived : ∀ i, Arrived sent copies i ↔ Arrived sent copies' i := fun i =>
    and_congr_right fun hi => by rw [hcopies i hi]
  have hgap : ∀ a b, Gap sent copies a b ↔ Gap sent copies' a b := fun a b => by
    simp only [Switchover.gap_iff, harrived]
  have hfilter : ∀ n, (idsBelow sent.toNat).filter (n < copies ·) =
      (idsBelow sent.toNat).filter (n < copies' ·) := fun n =>
    List.filter_congr fun i hi => by rw [hcopies i (mem_idsBelow.mp hi)]
  refine ⟨h.sent_eq, hfilter 0 ▸ h.received_eq, fun i => (h.shows_iff i).trans (harrived i),
    fun a b => (h.gap_iff a b).trans (hgap a b), h.order, fun n => ?_, fun n => ?_, ?_⟩
  · simpa only [harrived] using h.before_iff n
  · simpa only [harrived] using h.after_iff n
  · rw [h.duplications_eq, hfilter 1]
    refine List.map_congr_left fun i hi => ?_
    rw [hcopies i (mem_idsBelow.mp (List.mem_filter.mp hi).1)]

section OfCapture
variable {sent : UInt64} {capture : List Observation}

theorem arrived_copiesIn {i : UInt64} : Arrived sent (copiesIn capture) i ↔
    i < sent ∧ ∃ o ∈ capture, o.id = i := by
  rw [Arrived, copiesIn_pos]

theorem arrived_iff_mem {i : UInt64} : Arrived sent (copiesIn capture) i ↔
    ∃ a ∈ Arrival.ofCapture sent capture, a.id = i := by
  rw [arrived_copiesIn, Arrival.exists_mem_ofCapture]

theorem toNat_received_ofCapture : (ofCapture sent capture).received.toNat =
    ((idsBelow sent.toNat).filter (0 < copiesIn capture ·)).length := by
  have hlength : ((idsBelow sent.toNat).filter (0 < copiesIn capture ·)).length =
      (Arrival.ofCapture sent capture).length := by
    rw [← Arrival.map_id_ofCapture, List.length_map]
  have hle : (Arrival.ofCapture sent capture).length ≤ sent.toNat := by
    rw [← hlength]
    exact (List.length_filter_le ..).trans (length_idsBelow _).le
  rw [hlength]
  exact UInt64.toNat_ofNat_of_lt' (hle.trans_lt sent.toNat_lt)

/-- The outages of a delivery are the gaps between neighbouring ids that arrived. -/
theorem gap_iff_ofCapture (a b : UInt64) :
    (∃ w ∈ (ofCapture sent capture).outages, w.startId = a ∧ w.endId = b) ↔
      Gap sent (copiesIn capture) a b := by
  constructor
  · rintro ⟨w, hw, rfl, rfl⟩
    obtain ⟨x, y, hx, hy, rfl, htwo, hout⟩ := exists_between hw
    refine ⟨arrived_iff_mem.mpr ⟨x, hx, rfl⟩, arrived_iff_mem.mpr ⟨y, hy, rfl⟩, htwo, ?_⟩
    intro i hlow hhigh hi
    obtain ⟨c, hc, rfl⟩ := arrived_iff_mem.mp hi
    rcases hout c hc with hle | hle
    · exact absurd hlow (UInt64.not_lt.mpr hle)
    · exact absurd hhigh (UInt64.not_lt.mpr hle)
  · rintro ⟨ha, hb, htwo, hlost⟩
    obtain ⟨x, hx, rfl⟩ := arrived_iff_mem.mp ha
    obtain ⟨y, hy, rfl⟩ := arrived_iff_mem.mp hb
    -- the outage in which an id between the two is missing reaches from one of them to the other
    obtain ⟨i, hlow, hhigh⟩ := exists_id_between htwo
    obtain ⟨w, hw, hmiss⟩ := exists_misses Arrival.pairwise_ofCapture ⟨x, hx, UInt64.le_of_lt hlow⟩
      ⟨y, hy, UInt64.le_of_lt hhigh⟩ fun c hc hci =>
        hlost i hlow hhigh (arrived_iff_mem.mpr ⟨c, hc, hci⟩)
    obtain ⟨u, v, hu, hv, rfl, -, hout⟩ := exists_between hw
    obtain ⟨hux, hxv⟩ := hmiss
    have hstart : ¬ (x.id < u.id ∧ u.id < y.id) := fun h =>
      hlost u.id h.1 h.2 (arrived_iff_mem.mpr ⟨u, hu, rfl⟩)
    have hend : ¬ (x.id < v.id ∧ v.id < y.id) := fun h =>
      hlost v.id h.1 h.2 (arrived_iff_mem.mpr ⟨v, hv, rfl⟩)
    have hox := hout x hx
    have hoy := hout y hy
    simp only [Arrival.gap, UInt64.lt_iff_toNat_lt, UInt64.le_iff_toNat_le] at *
    exact ⟨_, hw, UInt64.toNat_inj.mp (by dsimp only [Arrival.gap]; omega),
      UInt64.toNat_inj.mp (by dsimp only [Arrival.gap]; omega)⟩

/-- Both edges: what is missing there are the ids beyond all that arrived. -/
theorem edges_ofCapture (n : Nat) :
    (n < (ofCapture sent capture).missingBefore.toNat ↔
      (∃ i, Arrived sent (copiesIn capture) i) ∧
        ∀ i, Arrived sent (copiesIn capture) i → n < i.toNat) ∧
    (n < (ofCapture sent capture).missingAfter.toNat ↔
      (∃ i, Arrived sent (copiesIn capture) i) ∧
        ∀ i, Arrived sent (copiesIn capture) i → i.toNat + n + 1 < sent.toNat) := by
  by_cases h : ∃ o ∈ capture, o.id < sent
  · obtain ⟨a, z, he⟩ := exists_edges h
    have hfirst : Arrived sent (copiesIn capture) a.id := arrived_iff_mem.mpr ⟨a, he.first_mem, rfl⟩
    have hlast : Arrived sent (copiesIn capture) z.id := arrived_iff_mem.mpr ⟨z, he.last_mem, rfl⟩
    have hbetween : ∀ i, Arrived sent (copiesIn capture) i →
        a.id.toNat ≤ i.toNat ∧ i.toNat ≤ z.id.toNat := by
      intro i hi
      obtain ⟨c, hc, rfl⟩ := arrived_iff_mem.mp hi
      have := he.between c hc
      rwa [UInt64.le_iff_toNat_le, UInt64.le_iff_toNat_le] at this
    rw [he.missingBefore_eq, he.toNat_missingAfter]
    refine ⟨⟨fun hn => ⟨⟨_, hfirst⟩, fun i hi => ?_⟩, fun hn => hn.2 _ hfirst⟩,
      ⟨fun hn => ⟨⟨_, hlast⟩, fun i hi => ?_⟩, fun hn => ?_⟩⟩
    · have := (hbetween i hi).1
      omega
    · have := (hbetween i hi).2
      omega
    · have := hn.2 _ hlast
      omega
  · have hnone : ¬ ∃ i, Arrived sent (copiesIn capture) i := by
      rintro ⟨i, hi⟩
      obtain ⟨hlt, o, ho, rfl⟩ := arrived_copiesIn.mp hi
      exact h ⟨o, ho, hlt⟩
    rw [ofCapture_of_foreign fun o ho hlt => h ⟨o, ho, hlt⟩]
    exact ⟨iff_of_false (Nat.not_lt_zero n) fun hn => hnone hn.1,
      iff_of_false (Nat.not_lt_zero n) fun hn => hnone hn.1⟩

theorem duplications_ofCapture (h : ∀ i < sent, copiesIn capture i < UInt32.size) :
    (ofCapture sent capture).duplications.map Duplication.figures =
      ((idsBelow sent.toNat).filter (1 < copiesIn capture ·)).map
        fun i => (i, i, copiesIn capture i - 1) := by
  calc (ofCapture sent capture).duplications.map Duplication.figures
      = (Arrival.ofCapture sent capture).filterMap fun a =>
          if 1 < copiesIn capture a.id then some (a.id, a.id, copiesIn capture a.id - 1)
          else none := by
        rw [ofCapture, List.map_filterMap]
        exact List.filterMap_congr fun a => Arrival.map_figures_duplication? h
    _ = ((idsBelow sent.toNat).filter (0 < copiesIn capture ·)).filterMap fun i =>
          if 1 < copiesIn capture i then some (i, i, copiesIn capture i - 1) else none := by
        rw [← Arrival.map_id_ofCapture, List.filterMap_map]
        rfl
    _ = _ := by
        rw [List.filterMap_filter, ← List.filterMap_eq_map, List.filterMap_filter]
        refine List.filterMap_congr fun i _ => ?_
        by_cases hi : 1 < copiesIn capture i
        · simp [hi, Nat.zero_lt_of_lt hi]
        · simp [hi]

/-- A delivery tells how often each id was captured, unless it was too often to be counted. -/
theorem tells_ofCapture (h : ∀ i < sent, copiesIn capture i < UInt32.size) :
    (ofCapture sent capture).Tells sent (copiesIn capture) where
  sent_eq := rfl
  received_eq := toNat_received_ofCapture
  shows_iff i := (shows_iff i).trans arrived_copiesIn.symm
  gap_iff := gap_iff_ofCapture
  order := pairwise_outages
  before_iff n := (edges_ofCapture n).1
  after_iff n := (edges_ofCapture n).2
  duplications_eq := duplications_ofCapture h

end OfCapture

/-! ### Deliveries with nothing missing -/

section NothingMissing
variable {d : Delivery} {sent : UInt64} {copies : UInt64 → Nat}

/-- What arrived is received. -/
theorem Tells.received_ne_zero (h : d.Tells sent copies) {i : UInt64}
    (hi : Arrived sent copies i) : d.received ≠ 0 := by
  intro hreceived
  have hlength := h.received_eq
  rw [hreceived, UInt64.toNat_zero, eq_comm, List.length_eq_zero_iff, List.filter_eq_nil_iff]
    at hlength
  exact hlength i (mem_idsBelow.mpr hi.1) (by simpa using hi.2)

section AllArrived
variable (h : d.Tells sent copies) (hall : ∀ i < sent, Arrived sent copies i)
include h hall

/-- Every outage misses an id. -/
theorem Tells.outages_eq_nil : d.outages = [] := by
  refine List.eq_nil_iff_forall_not_mem.mpr fun w hw => ?_
  obtain ⟨-, hright, htwo, hlost⟩ := (h.gap_iff w.startId w.endId).mp ⟨w, hw, rfl, rfl⟩
  obtain ⟨i, hlow, hhigh⟩ := exists_id_between htwo
  exact hlost i hlow hhigh (hall i (UInt64.lt_trans hhigh hright.1))

theorem Tells.missingBefore_eq_zero : d.missingBefore = 0 := by
  by_contra hne
  obtain ⟨⟨i, hi⟩, hbefore⟩ :=
    (h.before_iff 0).mp (Nat.pos_of_ne_zero (UInt64.toNat_inj.not.mpr hne))
  exact absurd (hbefore 0 (hall 0 (UInt64.lt_of_le_of_lt UInt64.zero_le hi.1))) (Nat.lt_irrefl 0)

theorem Tells.missingAfter_eq_zero : d.missingAfter = 0 := by
  by_contra hne
  obtain ⟨⟨i, hi⟩, hafter⟩ :=
    (h.after_iff 0).mp (Nat.pos_of_ne_zero (UInt64.toNat_inj.not.mpr hne))
  have hpos := UInt64.lt_iff_toNat_lt.mp hi.1
  have hlast : (sent - 1).toNat = sent.toNat - 1 := toNat_pred_of_lt hi.1
  have := hafter _ (hall (sent - 1) (by rw [UInt64.lt_iff_toNat_lt]; omega))
  omega

end AllArrived

/-- No id is listed as duplicated just if none was captured twice. -/
theorem Tells.duplications_eq_nil_iff (h : d.Tells sent copies) :
    d.duplications = [] ↔ ∀ i < sent, copies i ≤ 1 := by
  rw [← List.map_eq_nil_iff (f := Duplication.figures), h.duplications_eq, List.map_eq_nil_iff,
    List.filter_eq_nil_iff]
  simp only [mem_idsBelow, decide_eq_true_iff, Nat.not_lt]

end NothingMissing

end Delivery

end Switchover
