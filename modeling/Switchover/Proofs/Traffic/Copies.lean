import Mathlib
import Switchover.Proofs.Capture.Exactness
import Switchover.Proofs.Traffic.Unimpaired

/-!
Copies at the limit of their counters. The extra copies of a packet stop at the largest 32-bit
number, but the sniffer captures the packet itself as well, and what is counted are its captures. So
a packet with the largest number of copies is captured once more than can be counted, and its record
tells of no copy. A target that is listed again is sent every packet again, which its record cannot
tell from further copies. Up to these two, every copy is counted.
-/
namespace Switchover

/-! ### Extra copies -/

theorem toNat_saturatingAdd (a b : UInt32) :
    (saturatingAdd a b).toNat = min (a.toNat + b.toNat) (UInt32.size - 1) := by
  rw [saturatingAdd]
  split_ifs with hfits
  · rw [UInt32.toNat_add, Nat.mod_eq_of_lt hfits, Nat.min_eq_left (by omega)]
  · rw [UInt32.toNat_ofNat_of_lt' (by decide), Nat.min_eq_right (by omega)]

theorem toNat_foldl_saturatingAdd (l : List (UInt64 × UInt32)) (n : UInt32) :
    (l.foldl (fun n entry => saturatingAdd n entry.2) n).toNat =
      min (n.toNat + (l.map (·.2.toNat)).sum) (UInt32.size - 1) := by
  induction l generalizing n with
  | nil =>
    have hn := n.toNat_lt
    rw [List.foldl_nil, List.map_nil, List.sum_nil, Nat.add_zero,
      Nat.min_eq_left (by rw [UInt32.size]; omega)]
  | cons entry l ih =>
    rw [List.foldl_cons, ih, toNat_saturatingAdd, List.map_cons, List.sum_cons]
    omega

namespace Plan

/-- The extra copies that the entries of an id ask for together. -/
def copiesAsked (p : Plan) (id : UInt64) : Nat :=
  ((p.copies.filter (·.1 == id)).map (·.2.toNat)).sum

/-- The entries of an id add up as far as the count goes. -/
theorem toNat_extraCopies (p : Plan) (id : UInt64) :
    (p.extraCopies id).toNat = min (p.copiesAsked id) (UInt32.size - 1) := by
  rw [extraCopies, toNat_foldl_saturatingAdd, UInt32.toNat_zero, Nat.zero_add, copiesAsked]

/-- Below the largest count, a bound on the copies is one on what the entries ask for together. -/
theorem extraCopies_le_iff {p : Plan} {id : UInt64} {n : UInt32} (hn : n.toNat < UInt32.size - 1) :
    p.extraCopies id ≤ n ↔ p.copiesAsked id ≤ n.toNat := by
  rw [UInt32.le_iff_toNat_le, toNat_extraCopies]
  omega

/-- Entries that are bounded one by one are bounded together by their number. -/
theorem copiesAsked_le {p : Plan} {n : UInt32} (h : ∀ entry ∈ p.copies, entry.2 ≤ n)
    (id : UInt64) : p.copiesAsked id ≤ p.copies.countP (·.1 == id) * n.toNat := by
  have hall : ∀ k ∈ (p.copies.filter (·.1 == id)).map (·.2.toNat), k ≤ n.toNat := by
    intro k hk
    obtain ⟨entry, hentry, rfl⟩ := List.mem_map.mp hk
    exact UInt32.le_iff_toNat_le.mp (h entry (List.mem_of_mem_filter hentry))
  have hsum := List.sum_le_card_nsmul _ _ hall
  rwa [List.length_map, ← List.countP_eq_length_filter, smul_eq_mul] at hsum

theorem one_le_extraCopies {p : Plan} {id : UInt64} :
    1 ≤ p.extraCopies id ↔ p.copiesAsked id ≠ 0 := by
  have hone : (1 : UInt32).toNat = 1 := rfl
  rw [UInt32.le_iff_toNat_le, toNat_extraCopies, UInt32.size, hone]
  omega

theorem copiesOf_of_not_lost {p : Plan} {id : UInt64} (h : p.isLost id = false) :
    p.copiesOf id = 1 + (p.extraCopies id).toNat := by
  rw [copiesOf_eq, if_neg (by simp [h])]

end Plan

/-- Whether a packet that is not lost is counted right, if it is sent a number of times. What is
sent again looks like copies, so it must not be sent again if copies were asked for. -/
theorem Plan.counted_right_iff {p : Plan} {id : UInt64} {times : Nat} (htimes : 1 ≤ times)
    (hlost : p.isLost id = false) :
    (times * p.copiesOf id < UInt32.size ∧ (1 ≤ p.extraCopies id →
        Delivery.excessAfter (times * p.copiesOf id) = [p.extraCopies id])) ↔
      if p.copiesAsked id = 0 then times < UInt32.size
      else times = 1 ∧ p.copiesAsked id + 1 < UInt32.size := by
  have hextra := p.toNat_extraCopies id
  have hcopies := copiesOf_of_not_lost hlost
  split_ifs with hnone
  · rw [hnone, Nat.zero_min] at hextra
    rw [hcopies, hextra, Nat.mul_one, one_le_extraCopies]
    exact and_iff_left (absurd hnone)
  · have hone : 1 ≤ p.extraCopies id := one_le_extraCopies.mpr hnone
    constructor
    · rintro ⟨hfits, hlisted⟩
      have hsame := (Delivery.excessAfter_eq_singleton_iff hfits hone).mp (hlisted hone)
      rw [← hcopies] at hsame
      have honce : times = 1 := by
        refine Nat.eq_of_mul_eq_mul_right ?_ (hsame.trans (one_mul _).symm)
        omega
      rw [honce, Nat.one_mul, hcopies, hextra] at hfits
      exact ⟨honce, by omega⟩
    · rintro ⟨rfl, hasked⟩
      have hfits : 1 * p.copiesOf id < UInt32.size := by
        rw [Nat.one_mul, hcopies, hextra]
        omega
      refine ⟨hfits, fun _ => (Delivery.excessAfter_eq_singleton_iff hfits hone).mpr ?_⟩
      rw [Nat.one_mul, hcopies]

/-! ### Counters of a run -/

namespace Simulator

/-- Whether all numbers that a run and its examination compute for an endpoint are those that they
would compute without bounds. -/
structure CountsExactly (s : Simulator) (e : Endpoint) : Prop where
  /-- The packets sent to the endpoint. -/
  sent : (s.deliveryTo e).sent.toNat = s.sentTo e
  /-- The packets sent to all endpoints together. -/
  total : s.sends.length < UInt64.size
  /-- The place of each extra copy among the copies of its packet. -/
  place : ∀ id, ∀ k < (s.plan.extraCopies id).toNat, (UInt32.ofNat (k + 1)).toNat = k + 1
  /-- No capture is taken for other traffic. -/
  familiar : ∀ o ∈ s.capture e, o.id < (s.deliveryTo e).sent
  examination : Delivery.Exact (s.deliveryTo e).sent (s.capture e)

/-- Whether all counters of a run are exact, and its records list each packet that is not lost and
has extra copies once, with the number of these. -/
structure CountsCopies (s : Simulator) : Prop where
  exact : ∀ e ∈ s.targets, s.CountsExactly e
  listed : ∀ e ∈ s.targets, ∃ d, s.examine.record? e = some d ∧
    ∀ i < s.packets, s.plan.isLost i = false → 1 ≤ s.plan.extraCopies i →
      d.excessOf i = [s.plan.extraCopies i]

section New
variable {setup : Setup} {servers : List Endpoint} {packets : UInt64} {plan : Plan}
  {pick : Nat → Nat} {direction : Direction} {g r : Simulator} {e : Endpoint} {i : UInt64}

section WholeRun
variable (hg : (new setup servers packets plan).generate pick direction = .ok g)
  (hopen : plan.failsOnStart = false) (hrun : g.runs 1 = .ok r)
include hg hopen hrun

/-- The same id goes to an endpoint as often as the endpoint is listed. -/
theorem count_idsTo_whole_run (e : Endpoint) (i : UInt64) :
    (r.idsTo e).count i = if i < packets then g.targets.count e else 0 := by
  rw [idsTo_runs hg hopen hrun, List.replicate_one, List.flatten_singleton]
  have hcount : ∀ ids : List UInt64,
      (ids.flatMap (List.replicate (g.targets.count e))).count i =
        ids.count i * g.targets.count e := by
    intro ids
    induction ids with
    | nil => simp
    | cons id ids ih =>
      rw [List.flatMap_cons, List.count_append, ih, List.count_replicate, List.count_cons]
      split_ifs <;> ring
  rw [hcount]
  split_ifs with hi
  · rw [count_idsBelow hi, Nat.one_mul]
  · rw [List.count_eq_zero.mpr (mem_idsBelow.not.mpr hi), Nat.zero_mul]

theorem copiesIn_whole_run (hi : i < packets) (e : Endpoint) :
    copiesIn (r.capture e) i = g.targets.count e * plan.copiesOf i := by
  have hplan : r.plan = plan := by rw [eq_of_runs hg hopen hrun, ← plan_generate hg]
  rw [capture, Plan.copiesIn_flatMap_observe, count_idsTo_whole_run hg hopen hrun, if_pos hi, hplan]

theorem id_lt_of_mem_capture {o : Observation} (ho : o ∈ r.capture e) : o.id < packets := by
  by_contra hge
  have hpos : 0 < copiesIn (r.capture e) o.id := copiesIn_pos.mpr ⟨o, ho, rfl⟩
  rw [capture, Plan.copiesIn_flatMap_observe, count_idsTo_whole_run hg hopen hrun, if_neg hge,
    Nat.zero_mul] at hpos
  exact Nat.lt_irrefl 0 hpos

theorem length_sends_whole_run : r.sends.length = g.total := by
  rw [eq_of_runs hg hopen hrun, List.replicate_one, List.flatten_singleton, schedule,
    Option.getD_none, Nat.min_self, ← firstSends, firstSends_eq_map (generate_eq_ok hg).2.1,
    List.length_map, List.length_range]

theorem sentTo_whole_run (e : Endpoint) : r.sentTo e = g.targets.count e * packets.toNat := by
  rw [sentTo_runs hg hopen hrun, Nat.one_mul]

theorem sentTo_le_total (e : Endpoint) : r.sentTo e ≤ g.total := by
  rw [sentTo_whole_run hg hopen hrun, total, packets_generate hg, Nat.mul_comm]
  exact Nat.mul_le_mul_left _ List.count_le_length

theorem lt_sent_whole_run (he : e ∈ g.targets) (htotal : g.total < UInt64.size)
    (hi : i < packets) : i < (r.deliveryTo e).sent := by
  have hlisted : 1 ≤ g.targets.count e := List.count_pos_iff.mpr he
  have hsent : (r.deliveryTo e).sent.toNat = g.targets.count e * packets.toNat := by
    rw [← sentTo_whole_run hg hopen hrun]
    exact UInt64.toNat_ofNat_of_lt' ((sentTo_le_total hg hopen hrun e).trans_lt htotal)
  rw [UInt64.lt_iff_toNat_lt] at hi ⊢
  rw [hsent]
  exact hi.trans_le (Nat.le_mul_of_pos_left _ hlisted)

/-- The counters of a run suffice unless it sends too many packets to be counted, or the sniffer
captures one of them too often. -/
theorem countsExactly_iff (he : e ∈ g.targets) : r.CountsExactly e ↔
    g.total < UInt64.size ∧
      ∀ i < packets, g.targets.count e * plan.copiesOf i < UInt32.size := by
  have hlength := length_sends_whole_run hg hopen hrun
  constructor
  · intro h
    have htotal : g.total < UInt64.size := hlength ▸ h.total
    refine ⟨htotal, fun i hi => ?_⟩
    rw [← copiesIn_whole_run hg hopen hrun hi e]
    exact Delivery.exact_iff.mp h.examination i (lt_sent_whole_run hg hopen hrun he htotal hi)
  · rintro ⟨htotal, hfew⟩
    refine ⟨?_, hlength ▸ htotal, fun id k hk => ?_, fun o ho => ?_,
      Delivery.exact_iff.mpr fun i _ => ?_⟩
    · exact UInt64.toNat_ofNat_of_lt' ((sentTo_le_total hg hopen hrun e).trans_lt htotal)
    · have hextra := (r.plan.extraCopies id).toNat_lt
      exact UInt32.toNat_ofNat_of_lt' (by rw [UInt32.size]; omega)
    · exact lt_sent_whole_run hg hopen hrun he htotal (id_lt_of_mem_capture hg hopen hrun ho)
    · by_cases hi : i < packets
      · rw [copiesIn_whole_run hg hopen hrun hi]
        exact hfew i hi
      · have hnone : ¬ 0 < copiesIn (r.capture e) i := by
          rintro hpos
          obtain ⟨o, ho, rfl⟩ := copiesIn_pos.mp hpos
          exact hi (id_lt_of_mem_capture hg hopen hrun ho)
        rw [Nat.eq_zero_of_not_pos hnone]
        decide

theorem record?_whole_run_eq (he : e ∈ g.targets) :
    r.examine.record? e = some (r.deliveryTo e) := by
  rw [record?_examine, if_pos ((mem_sends_runs hg hopen hrun Nat.one_pos e).mpr he)]

end WholeRun

/-- The counters and records of a whole run. All is counted as the plan says just if the packets
can be counted and each of them that is not lost has captures that can be: with extra copies, its
target is listed once and the copies that the plan asks for, with the packet itself, do not go
beyond 32 bits. In any case a record lists the captures that the counter shows beyond one. -/
theorem copies_counted_iff (hopen : plan.failsOnStart = false)
    (hg : (new setup servers packets plan).generate pick direction = .ok g) :
    ∃ r, g.run none = .ok r ∧
      (r.CountsCopies ↔ g.total < UInt64.size ∧
        ∀ e ∈ g.targets, ∀ i < packets, plan.isLost i = false →
          if plan.copiesAsked i = 0 then g.targets.count e < UInt32.size
          else g.targets.count e = 1 ∧ plan.copiesAsked i + 1 < UInt32.size) ∧
      ∀ e ∈ g.targets, ∃ d, r.examine.record? e = some d ∧
        d.sent = .ofNat (g.targets.count e * packets.toNat) ∧
        ∀ i < packets, i < d.sent →
          d.excessOf i = Delivery.excessAfter (g.targets.count e * plan.copiesOf i) := by
  obtain ⟨-, hne, -⟩ := generate_eq_ok hg
  obtain ⟨r, hrun⟩ : ∃ r, g.runs 1 = .ok r :=
    ⟨_, runs_eq_ok (by rw [plan_generate hg, hopen]) 1⟩
  have hr := eq_of_runs hg hopen hrun
  have htargets : r.targets = g.targets := by rw [hr]
  have hpackets : r.packets = packets := by rw [hr, ← packets_generate hg]
  have hplan : r.plan = plan := by rw [hr, ← plan_generate hg]
  have hlisted : ∀ e ∈ g.targets, 1 ≤ g.targets.count e := fun e he => List.count_pos_iff.mpr he
  have hrecord : ∀ e ∈ g.targets, r.examine.record? e = some (r.deliveryTo e) := fun e he =>
    record?_whole_run_eq hg hopen hrun he
  have hexcess : ∀ e, ∀ i < packets, i < (r.deliveryTo e).sent →
      (r.deliveryTo e).excessOf i =
        Delivery.excessAfter (g.targets.count e * plan.copiesOf i) := by
    intro e i hi hsent
    rw [← copiesIn_whole_run hg hopen hrun hi]
    exact Delivery.excessOf_ofCapture hsent
  refine ⟨r, hrun, ⟨fun h => ?_, ?_⟩, fun e he => ⟨_, hrecord e he, ?_, hexcess e⟩⟩
  · obtain ⟨e₀, he₀⟩ := List.exists_mem_of_ne_nil _ hne
    have hexact : ∀ e ∈ g.targets, _ := fun e he =>
      (countsExactly_iff hg hopen hrun he).mp (h.exact e (htargets ▸ he))
    have htotal := (hexact e₀ he₀).1
    refine ⟨htotal, fun e he i hi hlost => ?_⟩
    obtain ⟨d, hd, hcounts⟩ := h.listed e (htargets ▸ he)
    rw [hrecord e he, Option.some.injEq] at hd
    subst hd
    rw [hpackets, hplan] at hcounts
    refine (Plan.counted_right_iff (hlisted e he) hlost).mp
      ⟨(hexact e he).2 i hi, fun hextra => ?_⟩
    rw [← hexcess e i hi (lt_sent_whole_run hg hopen hrun he htotal hi)]
    exact hcounts i hi hlost hextra
  · rintro ⟨htotal, hcountable⟩
    have hright : ∀ e ∈ g.targets, ∀ i < packets, plan.isLost i = false → _ :=
      fun e he i hi hlost =>
        (Plan.counted_right_iff (hlisted e he) hlost).mpr (hcountable e he i hi hlost)
    refine ⟨fun e he => ?_, fun e he => ⟨_, hrecord e (htargets ▸ he), ?_⟩⟩
    · rw [htargets] at he
      refine (countsExactly_iff hg hopen hrun he).mpr ⟨htotal, fun i hi => ?_⟩
      cases hlost : plan.isLost i with
      | false => exact (hright e he i hi hlost).1
      | true =>
        rw [Plan.copiesOf_eq, if_pos hlost, Nat.mul_zero]
        decide
    · rw [htargets] at he
      rw [hpackets, hplan]
      intro i hi hlost hextra
      rw [hexcess e i hi (lt_sent_whole_run hg hopen hrun he htotal hi)]
      exact (hright e he i hi hlost).2 hextra
  · rw [← sentTo_whole_run hg hopen hrun]
    rfl

/-- Two packets with the largest number of copies and one copy less, for one server: the record
lists no copy of the first one. A server that is listed twice has three copies of a packet for which
one was asked. -/
theorem copies_counted_iff_limit :
    let setup : Setup :=
      ⟨"upper-tor", "lower-tor", .t1ToServer, .activeStandby, .servers, .ofMillis 1, none⟩
    let server : Endpoint := ⟨"192.168.0.2"⟩
    let most : Plan := ⟨[], [(0, 4294967295), (1, 4294967294)], false⟩
    let one : Plan := ⟨[], [(0, 1)], false⟩
    let g : Simulator := { new setup [server] 2 most with targets := [server] }
    let g' : Simulator := { new setup [server, server] 1 one with targets := [server, server] }
    ∃ r d r' d', g.run none = .ok r ∧ r.examine.record? server = some d ∧ ¬ r.CountsCopies ∧
      d.excessOf 0 = [] ∧ d.excessOf 1 = [4294967294] ∧
      g'.run none = .ok r' ∧ r'.examine.record? server = some d' ∧ ¬ r'.CountsCopies ∧
      d'.excessOf 0 = [3] := by
  intro setup server most one g g'
  have hg : (new setup [server] 2 most).generate id .t1ToServer = .ok g := rfl
  have hg' : (new setup [server, server] 1 one).generate id .t1ToServer = .ok g' := rfl
  obtain ⟨r, hrun, hcounts, hrecords⟩ := copies_counted_iff rfl hg
  obtain ⟨r', hrun', hcounts', hrecords'⟩ := copies_counted_iff rfl hg'
  obtain ⟨d, hd, hsent, hexcess⟩ := hrecords server (by decide)
  obtain ⟨d', hd', hsent', hexcess'⟩ := hrecords' server (by decide)
  refine ⟨r, d, r', d', hrun, hd, fun h => ?_, ?_, ?_, hrun', hd', fun h => ?_, ?_⟩
  · have hzero := (hcounts.mp h).2 server (by decide) 0 (by decide) rfl
    exact absurd hzero (by decide)
  · rw [hexcess 0 (by decide) (by rw [hsent]; decide)]
    decide
  · rw [hexcess 1 (by decide) (by rw [hsent]; decide)]
    decide
  · have hzero := (hcounts'.mp h).2 server (by decide) 0 (by decide) rfl
    exact absurd hzero (by decide)
  · rw [hexcess' 0 (by decide) (by rw [hsent']; decide)]
    decide

end New

end Simulator

end Switchover
