import Mathlib
import Switchover.Proofs.Endpoint.Lookup
import Switchover.Proofs.Traffic.Sends

/-!
The records of a run. The sniffer captures what the plan lets through, so the record of an endpoint
tells of the plan alone, as far as packets were sent to that endpoint. A run that is cut anywhere
leaves the record of a whole run of fewer packets: a packet that was not sent is not missing.
-/
namespace Switchover

/-! ### What is captured -/

/-- How often the sniffer is to capture a packet with an id: never if the id lies in a range of
losses. -/
def Plan.copiesOf (p : Plan) (id : UInt64) : Nat :=
  if ∃ r ∈ p.losses, r.first ≤ id ∧ id ≤ r.last then 0 else 1 + (p.extraCopies id).toNat

theorem Plan.isLost_iff {p : Plan} {id : UInt64} :
    p.isLost id = true ↔ ∃ r ∈ p.losses, r.first ≤ id ∧ id ≤ r.last := by
  simp [isLost, IdRange.contains]

theorem Plan.copiesOf_eq (p : Plan) (id : UInt64) :
    p.copiesOf id = if p.isLost id then 0 else 1 + (p.extraCopies id).toNat := by
  simp only [copiesOf, isLost_iff]

theorem Plan.copiesIn_observe (p : Plan) (interval : Float) (id i : UInt64) :
    copiesIn (p.observe interval id) i = if id = i then p.copiesOf i else 0 := by
  by_cases hlost : p.isLost id
  · rw [observe, if_pos hlost, copiesIn, List.countP_nil]
    by_cases hi : id = i
    · rw [if_pos hi, ← hi, copiesOf_eq, if_pos hlost]
    · rw [if_neg hi]
  · rw [observe, if_neg hlost, copiesIn, List.countP_cons, List.countP_map]
    by_cases hi : id = i
    · subst hi
      simp [copiesOf_eq, hlost, Function.comp_def, Nat.add_comm]
    · simp [hi, Function.comp_def]

/-- Each time that an id is sent, it is captured as often as the plan says. -/
theorem Plan.copiesIn_flatMap_observe (p : Plan) (interval : Float) (ids : List UInt64)
    (i : UInt64) :
    copiesIn (ids.flatMap (p.observe interval)) i = ids.count i * p.copiesOf i := by
  induction ids with
  | nil => simp [copiesIn]
  | cons id ids ih =>
    rw [List.flatMap_cons, copiesIn, List.countP_append, ← copiesIn, ← copiesIn, ih,
      copiesIn_observe, List.count_cons]
    by_cases hi : id = i
    · rw [if_pos hi, if_pos (by simpa using hi)]
      ring
    · rw [if_neg hi, if_neg (by simpa using hi)]
      ring

namespace Simulator
variable {s : Simulator}

/-! ### What is recorded -/

/-- The record of an endpoint in the results of the last examination. -/
def record? (s : Simulator) (e : Endpoint) : Option Delivery :=
  s.results.bind (·.get? e)

/-- An examination records every endpoint that a packet was sent to, and no other. -/
theorem record?_examine (s : Simulator) (e : Endpoint) : s.examine.record? e =
    if e ∈ s.sends.map (·.target) then some (s.deliveryTo e) else none := by
  rw [record?, examine, Option.bind_some, EndpointMap.get?_ofList_map]
  simp only [List.mem_eraseDups]

theorem mem_targets_of_idsTo {e : Endpoint} (h : 0 < (s.idsTo e).length) :
    e ∈ s.sends.map (·.target) := by
  obtain ⟨id, hid⟩ := List.exists_mem_of_length_pos h
  obtain ⟨x, hx, -⟩ := List.mem_map.mp hid
  obtain ⟨hx, htarget⟩ := List.mem_filter.mp hx
  exact List.mem_map.mpr ⟨x, hx, by simpa using htarget⟩

/-- The record of an endpoint that was sent some packets from zero on. -/
theorem tells_deliveryTo {e : Endpoint} {sent : UInt64}
    (hids : s.idsTo e = idsBelow sent.toNat)
    (hcopies : ∀ id, s.plan.extraCopies id < UInt32.ofNat (UInt32.size - 1)) :
    (s.deliveryTo e).Tells sent s.plan.copiesOf := by
  have hcount : ∀ i < sent, copiesIn (s.capture e) i = s.plan.copiesOf i := by
    intro i hi
    rw [capture, Plan.copiesIn_flatMap_observe, hids, count_idsBelow hi, Nat.one_mul]
  have hfew : ∀ i < sent, copiesIn (s.capture e) i < UInt32.size := by
    intro i hi
    have hextra := UInt32.lt_iff_toNat_lt.mp (hcopies i)
    rw [UInt32.toNat_ofNat_of_lt' (by decide)] at hextra
    rw [hcount i hi, Plan.copiesOf_eq]
    split_ifs
    · decide
    · omega
  have hdelivery : s.deliveryTo e = .ofCapture sent (s.capture e) := by
    rw [deliveryTo, hids, length_idsBelow, UInt64.ofNat_toNat]
  rw [hdelivery]
  exact (Delivery.tells_ofCapture hfew).congr hcount

theorem deliveryTo_congr {t : Simulator} {e : Endpoint} (hids : s.idsTo e = t.idsTo e)
    (hsetup : s.setup = t.setup) (hplan : s.plan = t.plan) : s.deliveryTo e = t.deliveryTo e := by
  rw [deliveryTo, deliveryTo, capture, capture, hids, hsetup, hplan]

/-! ### Runs of a new simulator -/

/-- How many packets were sent to an endpoint. -/
def sentTo (s : Simulator) (e : Endpoint) : Nat :=
  (s.idsTo e).length

section New
variable {setup : Setup} {servers : List Endpoint} {packets : UInt64} {plan : Plan}
  {pick : Nat → Nat} {direction : Direction} {g r : Simulator} {stop : Option Nat} {e : Endpoint}

theorem run_eq_ok (hrun : g.run stop = .ok r) :
    r = { g with sends := g.sends ++ g.schedule stop } := by
  rw [run] at hrun
  split_ifs at hrun
  exact (Except.ok.inj hrun).symm

section Targets
variable (hg : (new setup servers packets plan).generate pick direction = .ok g)
include hg

/-- The targets do not depend on how many packets there are, unless there are none. -/
theorem generate_of_packets {sent : UInt64} (hsent : sent ≠ 0) :
    (new setup servers sent plan).generate pick direction = .ok { g with packets := sent } := by
  obtain ⟨-, hne, rfl⟩ := generate_eq_ok hg
  dsimp only [generate]
  rw [if_neg (show ¬ (new setup servers sent plan).packets = 0 from hsent)]
  exact if_neg (List.isEmpty_iff.not.mpr hne)

theorem plan_generate : g.plan = plan := by
  rw [(generate_eq_ok hg).2.2]
  rfl

theorem packets_generate : g.packets = packets := by
  rw [(generate_eq_ok hg).2.2]
  rfl

/-- A simulator that has prepared its traffic has not sent any. -/
theorem sends_generate : g.sends = [] := by
  rw [(generate_eq_ok hg).2.2]
  rfl

theorem exists_run (hopen : plan.failsOnStart = false) (stop : Option Nat) :
    ∃ r, g.run stop = .ok r :=
  ⟨_, if_neg (by rw [plan_generate hg, hopen]; decide)⟩

variable (hdistinct : g.targets.Nodup) (hrun : g.run stop = .ok r)
include hdistinct hrun

/-- The packets that a target of a new simulator is sent in a run. -/
theorem idsTo_run (he : e ∈ g.targets) : r.idsTo e = idsBelow (g.allotment stop e) := by
  rw [run_eq_ok hrun, ← ids_schedule hdistinct he, idsTo, sends_generate hg, List.nil_append]

theorem sentTo_run (he : e ∈ g.targets) : r.sentTo e = g.allotment stop e := by
  rw [sentTo, idsTo_run hg hdistinct hrun he, length_idsBelow]

/-- Where the ids are handed out from zero on, only their number matters. -/
theorem record?_whole_run (hopen : plan.failsOnStart = false) (he : e ∈ g.targets) {sent : UInt64}
    (hsent : sent.toNat = r.sentTo e) (hpos : 0 < r.sentTo e) :
    ∃ w v, (new setup servers sent plan).generate pick direction = .ok w ∧
      w.run none = .ok v ∧ v.examine.record? e = some (r.deliveryTo e) := by
  have hne : sent ≠ 0 := by rintro rfl; exact absurd hsent (Nat.ne_of_lt hpos)
  have hw := generate_of_packets hg hne
  obtain ⟨v, hv⟩ := exists_run hw hopen none
  have hids : v.idsTo e = idsBelow sent.toNat := by
    rw [idsTo_run hw hdistinct hv he]
    exact congrArg idsBelow (allotment_none he)
  have hsame : r.idsTo e = v.idsTo e := by
    rw [hids, hsent, sentTo, idsTo_run hg hdistinct hrun he, length_idsBelow]
  refine ⟨_, v, hw, hv, ?_⟩
  rw [record?_examine, if_pos (mem_targets_of_idsTo (by rwa [← hsame])),
    deliveryTo_congr hsame (by rw [run_eq_ok hrun, run_eq_ok hv])
      (by rw [run_eq_ok hrun, run_eq_ok hv])]

end Targets

/-- Wherever a run is stopped, the record of each target that was sent packets is what the plan says
of so many packets, and it is the record of a whole run of just these. -/
theorem records_follow_plan (hopen : plan.failsOnStart = false)
    (hcopies : ∀ id, plan.extraCopies id < UInt32.ofNat (UInt32.size - 1))
    (hg : (new setup servers packets plan).generate pick direction = .ok g)
    (hdistinct : g.targets.Nodup) (stop : Option Nat) :
    ∃ r, g.run stop = .ok r ∧
      (g.targets.map r.sentTo).Pairwise (fun earlier later =>
        later ≤ earlier ∧ earlier ≤ later + 1) ∧
      ∀ e ∈ g.targets,
        r.sentTo e = g.allotment stop e ∧
        (0 < r.sentTo e → ∃ d, r.examine.record? e = some d ∧ d.sent.toNat = r.sentTo e ∧
          d.Tells d.sent plan.copiesOf ∧
          ∃ w v, (new setup servers d.sent plan).generate pick direction = .ok w ∧
            w.run none = .ok v ∧ v.examine.record? e = some d) := by
  obtain ⟨r, hrun⟩ := exists_run hg hopen stop
  have hsentTo : ∀ e ∈ g.targets, r.sentTo e = g.allotment stop e := fun e he =>
    sentTo_run hg hdistinct hrun he
  refine ⟨r, hrun, ?_, fun e he => ⟨hsentTo e he, fun hpos => ?_⟩⟩
  · rw [List.map_congr_left hsentTo]
    exact pairwise_allotment hdistinct stop
  · have hsent : (UInt64.ofNat (r.sentTo e)).toNat = r.sentTo e :=
      UInt64.toNat_ofNat_of_lt' <| by
        rw [hsentTo e he]
        exact (allotment_le he stop).trans_lt g.packets.toNat_lt
    have hids : r.idsTo e = idsBelow (UInt64.ofNat (r.sentTo e)).toNat := by
      rw [hsent, hsentTo e he, idsTo_run hg hdistinct hrun he]
    have hplan : r.plan = plan := by rw [← plan_generate hg, run_eq_ok hrun]
    have htells := tells_deliveryTo hids (by rwa [hplan])
    rw [hplan] at htells
    refine ⟨r.deliveryTo e, ?_, hsent, htells,
      record?_whole_run hg hdistinct hrun hopen he hsent hpos⟩
    rw [record?_examine, if_pos (mem_targets_of_idsTo hpos)]

/-- Two servers, and a run that is cut before the second one is sent its fourth packet. -/
theorem records_follow_plan_cut :
    let setup : Setup :=
      ⟨"upper-tor", "lower-tor", .t1ToServer, .activeStandby, .servers, .ofMillis 1, none⟩
    let servers : List Endpoint := [⟨"192.168.0.2"⟩, ⟨"192.168.0.3"⟩]
    let plan : Plan := ⟨[⟨1, 1⟩], [(2, 2)], false⟩
    let g : Simulator := { new setup servers 5 plan with targets := servers }
    ∃ r d, g.run (some 7) = .ok r ∧ r.examine.record? ⟨"192.168.0.3"⟩ = some d ∧
      d.sent.toNat = 3 ∧ d.Tells d.sent plan.copiesOf := by
  intro setup servers plan g
  have hcopies : ∀ id, plan.extraCopies id < UInt32.ofNat (UInt32.size - 1) := by
    intro id
    by_cases hid : 2 = id
    · subst hid
      decide
    · simp [plan, Plan.extraCopies, hid]
  have hopen : plan.failsOnStart = false := rfl
  have hg : (new setup servers 5 plan).generate id .t1ToServer = .ok g := rfl
  obtain ⟨r, hrun, -, hrecords⟩ := records_follow_plan hopen hcopies hg (by decide) (some 7)
  obtain ⟨hsent, hrecord⟩ := hrecords ⟨"192.168.0.3"⟩ (by decide)
  have hthree : r.sentTo ⟨"192.168.0.3"⟩ = 3 := hsent.trans (by decide)
  obtain ⟨d, hd, hcount, htells, -⟩ := hrecord (by omega)
  exact ⟨r, d, hrun, hd, by omega, htells⟩

end New

end Simulator

end Switchover
