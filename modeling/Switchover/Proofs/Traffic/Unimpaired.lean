import Mathlib
import Switchover.Proofs.Traffic.Coverage
import Switchover.Proofs.Traffic.Records

/-!
Runs without faults. Every packet that is sent is captured, so no record tells of a loss between two
packets or before the first one. Yet a record counts the packets sent, and takes the count for the
range of their ids. The two agree if each id was sent once. A target that is listed again, or a
second run of the same traffic, sends the same ids again; then the record says that ids beyond the
last one are missing, though nothing was lost.
-/
namespace Switchover

theorem length_filter_idsBelow {sent bound : UInt64} :
    ((idsBelow sent.toNat).filter (· < bound)).length = min sent.toNat bound.toNat := by
  rcases Nat.le_total sent.toNat bound.toNat with h | h
  · have hall : (idsBelow sent.toNat).filter (· < bound) = idsBelow sent.toNat := by
      refine List.filter_eq_self.mpr fun i hi => ?_
      have hi := UInt64.lt_iff_toNat_lt.mp (mem_idsBelow.mp hi)
      exact decide_eq_true (UInt64.lt_iff_toNat_lt.mpr (hi.trans_le h))
    rw [hall, length_idsBelow, Nat.min_eq_left h]
  · have hcut : (idsBelow sent.toNat).filter (· < bound) = idsBelow bound.toNat := by
      refine eq_of_pairwise_lt ((pairwise_idsBelow sent.toNat_lt.le).filter _)
        (pairwise_idsBelow bound.toNat_lt.le) fun i => ?_
      rw [List.mem_filter, mem_idsBelow, mem_idsBelow, decide_eq_true_iff]
      simp only [UInt64.lt_iff_toNat_lt]
      omega
    rw [hcut, length_idsBelow, Nat.min_eq_right h]

/-! ### Captures of the first ids -/

/-- What a delivery says if just the ids below a bound arrived: none is missing before the first
one or between two others, and if more were counted, the others are missing behind the last one. -/
structure Delivery.ShowsFirst (d : Delivery) (sent bound : UInt64) : Prop where
  sent_eq : d.sent = sent
  received_eq : d.received.toNat = min sent.toNat bound.toNat
  outages_eq : d.outages = []
  missingBefore_eq : d.missingBefore = 0
  missingAfter_eq : d.missingAfter.toNat = sent.toNat - d.received.toNat

namespace Delivery

section OfCapture
variable {sent bound : UInt64} {capture : List Observation}
  (hcapture : ∀ i, (∃ o ∈ capture, o.id = i) ↔ i < bound)
include hcapture

theorem arrived_iff_lt (i : UInt64) :
    Arrived sent (copiesIn capture) i ↔ i < sent ∧ i < bound := by
  rw [arrived_copiesIn, hcapture]

theorem received_of_first :
    (ofCapture sent capture).received.toNat = min sent.toNat bound.toNat := by
  have hfilter : (idsBelow sent.toNat).filter (0 < copiesIn capture ·) =
      (idsBelow sent.toNat).filter (· < bound) := by
    refine List.filter_congr fun i _ => ?_
    rw [decide_eq_decide, copiesIn_pos, hcapture]
  rw [toNat_received_ofCapture, hfilter, length_filter_idsBelow]

theorem outages_of_first : (ofCapture sent capture).outages = [] := by
  refine List.eq_nil_iff_forall_not_mem.mpr fun w hw => ?_
  obtain ⟨-, hright, htwo, hlost⟩ :=
    (gap_iff_ofCapture w.startId w.endId).mp ⟨w, hw, rfl, rfl⟩
  obtain ⟨i, hlow, hhigh⟩ := exists_id_between htwo
  obtain ⟨hsent, hbound⟩ := (arrived_iff_lt hcapture w.endId).mp hright
  exact hlost i hlow hhigh ((arrived_iff_lt hcapture i).mpr
    ⟨UInt64.lt_trans hhigh hsent, UInt64.lt_trans hhigh hbound⟩)

theorem missingBefore_of_first : (ofCapture sent capture).missingBefore = 0 := by
  by_contra hne
  obtain ⟨⟨i, hi⟩, hbefore⟩ := (edges_ofCapture 0).1.mp
    (Nat.pos_of_ne_zero (UInt64.toNat_inj.not.mpr hne))
  obtain ⟨hsent, hbound⟩ := (arrived_iff_lt hcapture i).mp hi
  have hzero : Arrived sent (copiesIn capture) 0 := (arrived_iff_lt hcapture 0).mpr
    ⟨UInt64.lt_of_le_of_lt UInt64.zero_le hsent, UInt64.lt_of_le_of_lt UInt64.zero_le hbound⟩
  exact absurd (hbefore 0 hzero) (Nat.lt_irrefl 0)

theorem missingAfter_of_first (hbound : bound ≠ 0) :
    (ofCapture sent capture).missingAfter.toNat = sent.toNat - min sent.toNat bound.toNat := by
  have hpos : 0 < bound.toNat := UInt64.lt_iff_toNat_lt.mp (UInt64.pos_iff_ne_zero.mpr hbound)
  -- both sides are settled by the numbers below them
  refine eq_of_forall_lt_iff fun n => ?_
  rw [(edges_ofCapture n).2]
  simp only [arrived_iff_lt hcapture, UInt64.lt_iff_toNat_lt]
  constructor
  · rintro ⟨⟨i, hi⟩, hafter⟩
    have hlt := Nat.lt_min.mpr hi
    have hlast := UInt64.toNat_ofNat_of_lt' (n := min sent.toNat bound.toNat - 1) <| by
      have := sent.toNat_lt
      rw [UInt64.size]
      omega
    have := hafter (.ofNat (min sent.toNat bound.toNat - 1)) (by rw [hlast]; omega)
    rw [hlast] at this
    omega
  · intro hn
    refine ⟨⟨0, ?_⟩, fun i hi => ?_⟩
    · rw [UInt64.toNat_zero]
      omega
    · omega

/-- The record of a capture that holds just the ids below a bound. -/
theorem showsFirst_ofCapture (hbound : bound ≠ 0) :
    (ofCapture sent capture).ShowsFirst sent bound where
  sent_eq := rfl
  received_eq := received_of_first hcapture
  outages_eq := outages_of_first hcapture
  missingBefore_eq := missingBefore_of_first hcapture
  missingAfter_eq := by rw [received_of_first hcapture, missingAfter_of_first hcapture hbound]

end OfCapture

/-- Such a delivery is complete if no more ids were counted than arrived. -/
theorem ShowsFirst.complete_iff {d : Delivery} {sent bound : UInt64}
    (h : d.ShowsFirst sent bound) :
    d.received = d.sent ∧ d.missingAfter = 0 ↔ sent.toNat ≤ bound.toNat := by
  rw [← UInt64.toNat_inj, ← UInt64.toNat_inj, h.missingAfter_eq, h.received_eq, h.sent_eq,
    UInt64.toNat_zero]
  omega

end Delivery

/-! ### Whole runs -/

namespace Simulator
variable {s g r : Simulator} {e : Endpoint}

/-- The packets of one round. -/
def round (s : Simulator) (id : UInt64) : List Send :=
  s.targets.map (⟨id, ·⟩)

theorem firstSends_eq_map (h : g.targets ≠ []) (k : Nat) : g.firstSends k =
    (List.range k).map fun k => ⟨.ofNat (k / g.targets.length), g.targetAt h k⟩ := by
  rw [firstSends, funext (sendAt?_eq h)]
  exact congrFun List.filterMap_eq_map _

theorem firstSends_add_round (h : g.targets ≠ []) (n : Nat) :
    g.firstSends ((n + 1) * g.targets.length) =
      g.firstSends (n * g.targets.length) ++ g.round (.ofNat n) := by
  rw [firstSends_eq_map h, firstSends_eq_map h, Nat.succ_mul, List.range_add, List.map_append,
    List.map_map]
  refine congrArg _ (List.ext_getElem (by simp [round]) fun place hplace _ => ?_)
  have hplace : place < g.targets.length := by simpa using hplace
  have hround : (n * g.targets.length + place) / g.targets.length = n := by
    rw [Nat.mul_comm, Nat.mul_add_div (length_targets_pos h), Nat.div_eq_of_lt hplace, Nat.add_zero]
  have hturn : (n * g.targets.length + place) % g.targets.length = place := by
    rw [Nat.mul_comm, Nat.mul_add_mod, Nat.mod_eq_of_lt hplace]
  simp [round, targetAt, hround, hturn]

theorem ids_round (g : Simulator) (id : UInt64) (e : Endpoint) :
    ((g.round id).filter (·.target = e)).map (·.id) = List.replicate (g.targets.count e) id := by
  rw [round, List.filter_map, List.map_map, List.count_eq_length_filter]
  exact List.map_const' ..

/-- A whole run sends each id to an endpoint as often as the endpoint is listed. -/
theorem ids_whole_schedule (h : g.targets ≠ []) (e : Endpoint) :
    ((g.schedule none).filter (·.target = e)).map (·.id) =
      (idsBelow g.packets.toNat).flatMap (List.replicate (g.targets.count e)) := by
  rw [schedule, Option.getD_none, Nat.min_self, total, ← firstSends]
  induction g.packets.toNat with
  | zero => simp [firstSends, idsBelow]
  | succ n ih =>
    rw [firstSends_add_round h, List.filter_append, List.map_append, ih, ids_round, idsBelow_succ,
      List.flatMap_append, List.flatMap_singleton]

/-- The simulator after some whole runs of its traffic. -/
def runs (s : Simulator) : Nat → Except SimulatorError Simulator
  | 0 => .ok s
  | k + 1 => s.runs k >>= (·.run none)

theorem runs_eq_ok (hopen : g.plan.failsOnStart = false) (k : Nat) :
    g.runs k = .ok { g with sends := g.sends ++ (List.replicate k (g.schedule none)).flatten } := by
  induction k with
  | zero => simp [runs]
  | succ k ih =>
    rw [runs, ih, List.replicate_succ', List.flatten_append, List.flatten_singleton,
      ← List.append_assoc]
    exact if_neg (by simp [hopen])

section New
variable {setup : Setup} {servers : List Endpoint} {packets : UInt64} {plan : Plan}
  {pick : Nat → Nat} {direction : Direction} {k : Nat}

section Runs
variable (hg : (new setup servers packets plan).generate pick direction = .ok g)
  (hopen : plan.failsOnStart = false) (hrun : g.runs k = .ok r)
include hg hopen hrun

theorem eq_of_runs :
    r = { g with sends := (List.replicate k (g.schedule none)).flatten } := by
  rw [runs_eq_ok (by rw [plan_generate hg, hopen]), sends_generate hg, List.nil_append] at hrun
  exact (Except.ok.inj hrun).symm

/-- The ids that an endpoint is sent in some whole runs. -/
theorem idsTo_runs (e : Endpoint) : r.idsTo e =
    (List.replicate k ((idsBelow packets.toNat).flatMap
      (List.replicate (g.targets.count e)))).flatten := by
  obtain ⟨-, hne, -⟩ := generate_eq_ok hg
  rw [eq_of_runs hg hopen hrun, idsTo, List.filter_flatten, List.map_replicate, List.map_flatten,
    List.map_replicate, ids_whole_schedule hne, packets_generate hg]

theorem sentTo_runs (e : Endpoint) :
    r.sentTo e = k * g.targets.count e * packets.toNat := by
  rw [sentTo, idsTo_runs hg hopen hrun]
  simp
  ring

theorem mem_idsTo_runs (hk : 0 < k) (he : e ∈ g.targets) (i : UInt64) :
    i ∈ r.idsTo e ↔ i < packets := by
  have hlisted : g.targets.count e ≠ 0 := (List.count_pos_iff.mpr he).ne'
  rw [idsTo_runs hg hopen hrun]
  simp [hk.ne', hlisted, mem_idsBelow]

theorem mem_sends_runs (hk : 0 < k) (e : Endpoint) :
    e ∈ r.sends.map (·.target) ↔ e ∈ g.targets := by
  rw [← show g.reached none = g.targets from rfl, ← mem_targets_schedule hg,
    eq_of_runs hg hopen hrun]
  simp [hk.ne']

end Runs

/-- Without faults each packet is captured once. -/
theorem mem_capture_clean (hplan : s.plan = .clean) (e : Endpoint) (i : UInt64) :
    (∃ o ∈ s.capture e, o.id = i) ↔ i ∈ s.idsTo e := by
  have hcopies : Plan.clean.copiesOf i = 1 := rfl
  rw [← copiesIn_pos, capture, hplan, Plan.copiesIn_flatMap_observe, hcopies, Nat.mul_one,
    List.count_pos_iff]

/-- After some whole runs without faults each target has a record, and nobody else. It shows all
ids that were to be sent, and no loss among them; but it counts each of them as often as it was
sent. So it says that everything was received just if there was one run and the target is listed
once in it. -/
theorem unimpaired_records
    (hg : (new setup servers packets .clean).generate pick direction = .ok g) (hk : 0 < k) :
    ∃ r, g.runs k = .ok r ∧ (∀ e, (r.examine.record? e).isSome ↔ e ∈ g.targets) ∧
      ∀ e d, r.examine.record? e = some d →
        d.ShowsFirst (.ofNat (k * g.targets.count e * packets.toNat)) packets ∧
        (k * g.targets.count e * packets.toNat < UInt64.size →
          (d.received = d.sent ∧ d.missingAfter = 0 ↔ k = 1 ∧ g.targets.count e = 1)) := by
  obtain ⟨hpackets, -, -⟩ := generate_eq_ok hg
  have hplan := plan_generate hg
  obtain ⟨r, hrun⟩ : ∃ r, g.runs k = .ok r := ⟨_, runs_eq_ok (by rw [hplan]; rfl) k⟩
  have hsends := mem_sends_runs hg rfl hrun hk
  refine ⟨r, hrun, fun e => ?_, fun e d hd => ?_⟩
  · rw [record?_examine, ← hsends e]
    split_ifs with he <;> simp [he]
  · rw [record?_examine] at hd
    split_ifs at hd with he
    obtain rfl := Option.some.inj hd
    have he := (hsends e).mp he
    have hclean : r.plan = .clean := by rw [eq_of_runs hg rfl hrun, hplan]
    have hshows : (r.deliveryTo e).ShowsFirst
        (.ofNat (k * g.targets.count e * packets.toNat)) packets := by
      rw [← sentTo_runs hg rfl hrun]
      refine Delivery.showsFirst_ofCapture (fun i => ?_) hpackets
      rw [mem_capture_clean hclean, mem_idsTo_runs hg rfl hrun hk he]
    have hpos : 0 < packets.toNat := UInt64.lt_iff_toNat_lt.mp (UInt64.pos_iff_ne_zero.mpr hpackets)
    have htimes : 0 < k * g.targets.count e := Nat.mul_pos hk (List.count_pos_iff.mpr he)
    refine ⟨hshows, fun hfits => ?_⟩
    rw [hshows.complete_iff, UInt64.toNat_ofNat_of_lt' hfits, mul_le_iff_le_one_left hpos,
      ← mul_eq_one]
    omega

/-- A server that is listed twice is counted twice as many packets as it can have received; one
that is listed once is not. -/
theorem unimpaired_records_repeated :
    let setup : Setup :=
      ⟨"upper-tor", "lower-tor", .t1ToServer, .activeStandby, .servers, .ofMillis 1, none⟩
    let servers : List Endpoint := [⟨"192.168.0.2"⟩, ⟨"192.168.0.3"⟩, ⟨"192.168.0.2"⟩]
    let g : Simulator := { new setup servers 3 .clean with targets := servers }
    ∃ r d d', g.runs 1 = .ok r ∧
      r.examine.record? ⟨"192.168.0.2"⟩ = some d ∧
      r.examine.record? ⟨"192.168.0.3"⟩ = some d' ∧
      d.ShowsFirst 6 3 ∧ ¬ (d.received = d.sent ∧ d.missingAfter = 0) ∧
      d'.ShowsFirst 3 3 ∧ (d'.received = d'.sent ∧ d'.missingAfter = 0) := by
  intro setup servers g
  have hg : (new setup servers 3 .clean).generate id .t1ToServer = .ok g := rfl
  obtain ⟨r, hrun, hsome, hrecords⟩ := unimpaired_records hg Nat.one_pos
  obtain ⟨d, hd⟩ := Option.isSome_iff_exists.mp ((hsome ⟨"192.168.0.2"⟩).mpr (by decide))
  obtain ⟨d', hd'⟩ := Option.isSome_iff_exists.mp ((hsome ⟨"192.168.0.3"⟩).mpr (by decide))
  obtain ⟨htwice, hcomplete⟩ := hrecords _ d hd
  obtain ⟨honce, hcomplete'⟩ := hrecords _ d' hd'
  exact ⟨r, d, d', hrun, hd, hd', htwice, (hcomplete (by decide)).not.mpr (by decide),
    honce, (hcomplete' (by decide)).mpr (by decide)⟩

end New

end Simulator

end Switchover
