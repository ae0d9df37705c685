import Mathlib
import Switchover.Proofs.Bridge.Runs
import Switchover.Proofs.Capture.Account

/-!
What bridging covers. A run keeps the start of its first window in time, so it covers an outage in
it just when no window that starts behind the outage by ids comes before it in time. No other window
of a delivery reaches across the start of an outage, hence no other run covers it either. In a
capture that is in order every outage is covered, in time as well, and nothing else is left.
-/
namespace Switchover

/-- Whether a window contains another one by its ids. -/
def Window.Covers (m w : Window) : Prop :=
  m.startId ≤ w.startId ∧ w.endId ≤ m.endId

/-- Whether a window contains another one by its times. -/
def Window.Outlasts (m w : Window) : Prop :=
  m.startTime ≤ w.startTime ∧ w.endTime ≤ m.endTime

theorem covers_iff {a b : Block} : a.window.Covers b.window ↔ a.lo ≤ b.lo ∧ b.hi ≤ a.hi := by
  rw [Window.Covers, UInt64.le_iff_toNat_le, UInt64.le_iff_toNat_le]; rfl

/-! ### Crossing an id -/

namespace Run
variable {r s : Run} {rs : List Run} {w v : Block}

/-- What has not crossed an id only does so with a window that starts before it. -/
theorem hi_foldl_le {a : Block} {l : List Block} {n : Nat} (h : a.Absorbs l) (ha : a.hi ≤ n)
    (hl : ∀ x ∈ l, x.lo ≤ n + 1 → x.hi ≤ n) : (l.foldl Block.join a).hi ≤ n := by
  induction l generalizing a with
  | nil => exact ha
  | cons b l ih =>
    obtain ⟨htouch, hrest⟩ := h
    have hb := Block.touches_iff.mp htouch
    have hreach := hl b (List.mem_cons_self ..) (by omega)
    refine ih hrest ?_ fun x hx => hl x (List.mem_cons_of_mem b hx)
    rw [Block.hi_join]
    omega

/-- Whether no window but `w` reaches across the start of `w`. -/
def Clear (w : Block) (l : List Block) : Prop :=
  ∀ x ∈ l, x ≠ w → x.lo ≤ w.lo + 1 → x.hi ≤ w.lo

/-- A run that reaches across the start of a window contains it. -/
theorem mem_of_lt_hi (hclear : Clear w r.windows) (hlo : r.head.lo ≤ w.lo)
    (hhi : w.lo < r.block.hi) : w ∈ r.windows := by
  by_contra hw
  have hne : ∀ x ∈ r.windows, x ≠ w := fun x hx hxw => hw (hxw ▸ hx)
  have hhead := hclear r.head r.head_mem_windows (hne _ r.head_mem_windows) (by omega)
  have hle := hi_foldl_le r.absorbs hhead fun x hx =>
    hclear x (List.mem_cons_of_mem _ hx) (hne x (List.mem_cons_of_mem _ hx))
  rw [block] at hhi
  omega

/-- What a run lists before a window that starts behind its head ends before that window. -/
theorem hi_le_of_mem_front (hclear : Clear w r.windows) (hlo : r.head.lo ≤ w.lo)
    {front back : List Block} (hsplit : r.windows = front ++ w :: back) (hw : w ∉ front)
    (hv : v ∈ front) : v.hi ≤ w.lo := by
  cases front with
  | nil => cases hv
  | cons b front =>
    obtain ⟨rfl, htail⟩ : r.head = b ∧ r.tail = front ++ w :: back := List.cons.inj hsplit
    have hmem : ∀ x ∈ r.head :: front, x ∈ r.windows ∧ x ≠ w := fun x hx =>
      ⟨by rw [hsplit]; exact List.mem_append_left _ hx, fun hxw => hw (hxw ▸ hx)⟩
    have habs := r.absorbs
    rw [htail, Block.absorbs_append] at habs
    have hhead := hmem r.head (List.mem_cons_self ..)
    have hle := hi_foldl_le habs.1 (hclear _ hhead.1 hhead.2 (by omega)) fun x hx =>
      have hx' := hmem x (List.mem_cons_of_mem _ hx)
      hclear x hx'.1 hx'.2
    exact (hi_foldl_join r.head front v hv).trans hle

/-! ### Runs of proper windows -/

/-- Where no window ends before it starts, any two runs lie apart. -/
theorem pairwise_apart (h : rs.IsChain Apart) (hproper : ∀ b ∈ rs.flatMap windows, b.lo ≤ b.hi) :
    rs.Pairwise Apart := by
  induction rs with
  | nil => exact List.Pairwise.nil
  | cons r rs ih =>
    have hrest := ih h.tail fun b hb => hproper b (by simp [hb])
    refine List.pairwise_cons.mpr ⟨fun t ht => ?_, hrest⟩
    cases rs with
    | nil => cases ht
    | cons s rs =>
      have hrs := (List.isChain_cons_cons.mp h).1
      rcases List.mem_cons.mp ht with rfl | ht
      · exact hrs
      · have hst := List.rel_of_pairwise_cons hrest ht
        have hs := hproper s.head (by simp [head_mem_windows])
        have hreach := hi_le_block s.head_mem_windows
        simp only [Apart] at *
        omega

theorem pairwise_outageBlocks (h : rs.Pairwise Apart) :
    (outageBlocks rs).Pairwise fun a b => a.hi + 1 < b.lo := by
  refine List.Pairwise.filter _ (List.pairwise_map.mpr (h.imp fun hrs => ?_))
  rw [lo_block]
  exact hrs

/-- Each run has at most one outage for the outages among its windows. -/
theorem length_outageBlocks_le (rs : List Run) :
    (outageBlocks rs).length ≤ ((rs.flatMap windows).filter (·.outage)).length := by
  induction rs with
  | nil => exact Nat.le_refl _
  | cons r rs ih =>
    rw [List.flatMap_cons, List.filter_append, List.length_append]
    cases hr : r.block.outage with
    | true =>
      obtain ⟨b, hb, hout⟩ := List.any_eq_true.mp (r.outage_block ▸ hr)
      have hpos : 0 < (r.windows.filter (·.outage)).length :=
        List.length_pos_of_mem (List.mem_filter.mpr ⟨hb, hout⟩)
      rw [outageBlocks_cons_of_outage hr, List.length_cons]
      omega
    | false =>
      rw [outageBlocks_cons_of_not hr]
      omega

end Run

/-! ### The windows of a delivery -/

namespace Delivery
variable {sent : UInt64} {capture : List Observation}

theorem exists_of_mem_duplications {d : Duplication}
    (hd : d ∈ (ofCapture sent capture).duplications) :
    ∃ c ∈ Arrival.ofCapture sent capture, d.window = ⟨c.id, c.id, c.first, c.last⟩ := by
  obtain ⟨c, hc, hdup⟩ := List.mem_filterMap.mp hd
  obtain ⟨-, rfl⟩ := Arrival.duplication?_eq_some_iff.mp hdup
  exact ⟨c, hc, rfl⟩

/-- The windows of a delivery in the order of time. -/
def windows (d : Delivery) : List Block :=
  windowsByTime d.outages d.duplications

/-- A window lies between two arrivals, or at one that was duplicated. -/
theorem exists_of_mem_windows {x : Block} (hx : x ∈ (ofCapture sent capture).windows) :
    (x.outage = true ∧ x.window ∈ (ofCapture sent capture).outages ∧
      ∃ a b, Between (Arrival.ofCapture sent capture) x.window a b) ∨
    (x.outage = false ∧
      ∃ c ∈ Arrival.ofCapture sent capture, x.window = ⟨c.id, c.id, c.first, c.last⟩) := by
  rcases (mem_windowsByTime ..).mp hx with ⟨w, hw, rfl⟩ | ⟨d, hd, rfl⟩
  · exact .inl ⟨rfl, hw, exists_between hw⟩
  · exact .inr ⟨rfl, exists_of_mem_duplications hd⟩

theorem mem_windows {w : Window} (hw : w ∈ (ofCapture sent capture).outages) :
    (⟨w, true⟩ : Block) ∈ (ofCapture sent capture).windows :=
  (mem_windowsByTime ..).mpr (.inl ⟨w, hw, rfl⟩)

theorem proper_windows : ∀ x ∈ (ofCapture sent capture).windows, x.lo ≤ x.hi := by
  intro x hx
  rcases exists_of_mem_windows hx with ⟨-, -, a, b, -, -, heq, htwo, -⟩ | ⟨-, c, -, heq⟩
  · rw [Block.lo, Block.hi, heq]
    simp only [Arrival.gap]
    omega
  · rw [Block.lo, Block.hi, heq]

theorem eq_of_startId {v w : Window} (hv : v ∈ (ofCapture sent capture).outages)
    (hw : w ∈ (ofCapture sent capture).outages) (h : v.startId = w.startId) : v = w := by
  refine eq_of_pairwise (R := fun v w : Window => v.startId = w.startId) ?_ hv hw h
  refine pairwise_outages.imp fun h => ?_
  grind

/-- No other window reaches across the start of an outage, since all are bounded by arrivals. -/
theorem clear_windows {w : Window} (hw : w ∈ (ofCapture sent capture).outages) :
    Run.Clear ⟨w, true⟩ (ofCapture sent capture).windows := by
  intro x hx hne hlo
  obtain ⟨a, b, ha, hb, heq, htwo, hout⟩ := exists_between hw
  have hstart : (⟨w, true⟩ : Block).lo = a.id.toNat := by rw [heq]; rfl
  rw [hstart] at hlo ⊢
  have hle : ∀ c ∈ Arrival.ofCapture sent capture, c.id.toNat ≤ a.id.toNat + 1 →
      c.id.toNat ≤ a.id.toNat := by
    intro c hc hca
    rcases hout c hc with h | h
    · exact UInt64.le_iff_toNat_le.mp h
    · have := UInt64.le_iff_toNat_le.mp h
      omega
  rcases exists_of_mem_windows hx with ⟨hxout, hxw, c, d, hc, -, hxeq, -, hcout⟩ |
    ⟨-, c, hc, hxeq⟩
  · have hxlo : x.lo = c.id.toNat := by rw [Block.lo, hxeq]; rfl
    have hxhi : x.hi = d.id.toNat := by rw [Block.hi, hxeq]; rfl
    rw [hxlo] at hlo
    rw [hxhi]
    have hca := hle c hc hlo
    rcases hcout a ha with h | h
    · -- the same start, hence the same outage
      exfalso
      have hid : a.id = c.id := UInt64.le_antisymm h (UInt64.le_iff_toNat_le.mpr hca)
      have hxw' : x.window = w := eq_of_startId hxw hw (by rw [hxeq, heq]; exact hid.symm)
      exact hne (by cases x; cases hxout; cases hxw'; rfl)
    · exact UInt64.le_iff_toNat_le.mp h
  · have hxlo : x.lo = c.id.toNat := by rw [Block.lo, hxeq]
    have hxhi : x.hi = c.id.toNat := by rw [Block.hi, hxeq]
    rw [hxlo] at hlo
    rw [hxhi]
    exact hle c hc hlo

/-! ### Outages that are covered -/

/-- Whether no window that starts behind `w` by its ids comes before it in time. -/
def Leads (d : Delivery) (w : Window) : Prop :=
  ∀ v ∈ d.outages ++ d.duplications.map (·.window), w.startId < v.startId →
    timeRank w.startTime ≤ timeRank v.startTime

instance (d : Delivery) (w : Window) : Decidable (d.Leads w) :=
  inferInstanceAs (Decidable (∀ v ∈ _, _))

theorem leads_iff {d : Delivery} {w : Window} : d.Leads w ↔
    ∀ x ∈ d.windows, (⟨w, true⟩ : Block).lo < x.lo → (⟨w, true⟩ : Block).rank ≤ x.rank := by
  simp only [Leads, windows, mem_windowsByTime, Block.lo, Block.rank, UInt64.lt_iff_toNat_lt]
  constructor
  · rintro h x (⟨v, hv, rfl⟩ | ⟨v, hv, rfl⟩) hlt
    · exact h v (by simp [hv]) hlt
    · exact h v.window (List.mem_append_right _ (List.mem_map_of_mem hv)) hlt
  · intro h v hv hlt
    rcases List.mem_append.mp hv with hv | hv
    · exact h ⟨v, true⟩ (.inl ⟨v, hv, rfl⟩) hlt
    · obtain ⟨u, hu, rfl⟩ := List.mem_map.mp hv
      exact h ⟨u.window, false⟩ (.inr ⟨u, hu, rfl⟩) hlt

section Runs
variable {w : Window} {r : Run}

theorem pairwise_runs : (runs (ofCapture sent capture).windows).Pairwise Run.Apart :=
  Run.pairwise_apart (apart_runs _) (by rw [flatMap_windows_runs]; exact proper_windows)

theorem run_sublist (hr : r ∈ runs (ofCapture sent capture).windows) :
    r.windows.Sublist (ofCapture sent capture).windows :=
  Run.windows_sublist hr

/-- The first window of a run comes no later than an outage in it, and before it by its ids where
they come at the same time. -/
theorem lo_head_le (hl : (ofCapture sent capture).Leads w)
    (hr : r ∈ runs (ofCapture sent capture).windows) (hw : ⟨w, true⟩ ∈ r.windows) :
    r.head.lo ≤ (⟨w, true⟩ : Block).lo := by
  rcases List.mem_cons.mp hw with hhead | htail
  · rw [hhead]
  · have horder := (pairwise_windowsByTime _ (ofCapture sent capture).duplications
      (pairwise_outages.imp And.left)).sublist (run_sublist hr)
    by_contra hlt
    have hrank := leads_iff.mp hl r.head ((run_sublist hr).subset r.head_mem_windows) (by omega)
    rcases List.rel_of_pairwise_cons horder htail with h | ⟨-, h⟩
    · omega
    · have hid := UInt64.lt_iff_toNat_lt.mp (h rfl).2
      rw [Block.lo, Block.lo] at hlt
      omega

/-- A window lies in an earlier run, apart from the given one, or in that run, or comes after it. -/
theorem earlier_or_mem_or_later {v : Block} (hv : v ∈ (ofCapture sent capture).windows)
    (hr : r ∈ runs (ofCapture sent capture).windows) :
    (∃ s : Run, v ∈ s.windows ∧ s.Apart r) ∨ v ∈ r.windows ∨ ∀ x ∈ r.windows, x.rank ≤ v.rank := by
  have hasc : Ascending Block.rank (ofCapture sent capture).windows := ascending_sortByRank _
  obtain ⟨early, late, hsplit⟩ := List.append_of_mem hr
  have hapart : (runs (ofCapture sent capture).windows).Pairwise Run.Apart := pairwise_runs
  have hflat := flatMap_windows_runs (ofCapture sent capture).windows
  rw [hsplit] at hapart hflat
  rw [List.flatMap_append, List.flatMap_cons] at hflat
  rw [← hflat] at hasc hv
  rcases List.mem_append.mp hv with hv | hv
  · obtain ⟨s, hs, hvs⟩ := List.mem_flatMap.mp hv
    exact .inl ⟨s, hvs, (List.pairwise_append.mp hapart).2.2 s hs r (List.mem_cons_self ..)⟩
  rcases List.mem_append.mp hv with hv | hv
  · exact .inr (.inl hv)
  · have hrest := (List.pairwise_append.mp (List.pairwise_append.mp hasc).2.1).2.2
    exact .inr (.inr fun x hx => hrest x hx v hv)

/-- What comes before an outage in time, in its run or in an earlier one, ends before it by its ids
if the run starts there. -/
theorem leads_of_lo_head_le (hw : w ∈ (ofCapture sent capture).outages)
    (hr : r ∈ runs (ofCapture sent capture).windows) (hwr : ⟨w, true⟩ ∈ r.windows)
    (hlo : r.head.lo ≤ (⟨w, true⟩ : Block).lo) : (ofCapture sent capture).Leads w := by
  rw [leads_iff]
  intro v hv hlt
  by_contra hrank
  have hproper := proper_windows v hv
  rcases earlier_or_mem_or_later hv hr with ⟨s, hvs, hsr⟩ | hvr | hlater
  · have := Run.hi_le_block hvs
    rw [Run.Apart] at hsr
    omega
  · have hclear : Run.Clear ⟨w, true⟩ r.windows := fun x hx =>
      clear_windows hw x ((run_sublist hr).subset hx)
    have hasc : Ascending Block.rank r.windows := (ascending_sortByRank _).sublist (run_sublist hr)
    obtain ⟨front, back, hwin, hfront⟩ := List.eq_append_cons_of_mem hwr
    rw [hwin] at hvr hasc
    rcases List.mem_append.mp hvr with hv | hv
    · have := Run.hi_le_of_mem_front hclear hlo hwin hfront hv
      omega
    · exact hrank (Ascending.head_le (List.pairwise_append.mp hasc).2.1 hv)
  · exact hrank (hlater _ hwr)

theorem mem_bridge {d : Delivery} {m : Window} : m ∈ bridge d.outages d.duplications ↔
    ∃ r ∈ runs d.windows, r.block.outage = true ∧ r.block.window = m :=
  Switchover.mem_bridge ..

theorem exists_run (hw : w ∈ (ofCapture sent capture).outages) :
    ∃ r ∈ runs (ofCapture sent capture).windows, ⟨w, true⟩ ∈ r.windows :=
  exists_mem_runs (mem_windows hw)

theorem covers_block (hw : ⟨w, true⟩ ∈ r.windows) (hlo : r.head.lo ≤ (⟨w, true⟩ : Block).lo) :
    r.block.window.Covers w :=
  covers_iff (b := ⟨w, true⟩) |>.mpr ⟨by rw [Run.lo_block]; exact hlo, Run.hi_le_block hw⟩

/-- A run that covers an outage contains it. -/
theorem mem_of_covers (hw : w ∈ (ofCapture sent capture).outages)
    (hr : r ∈ runs (ofCapture sent capture).windows) (h : r.block.window.Covers w) :
    ⟨w, true⟩ ∈ r.windows := by
  obtain ⟨hlo, hhi⟩ := covers_iff (b := ⟨w, true⟩) |>.mp h
  obtain ⟨a, b, -, -, heq, htwo, -⟩ := exists_between hw
  have hlt : (⟨w, true⟩ : Block).lo < (⟨w, true⟩ : Block).hi := by
    rw [Block.lo, Block.hi, heq]
    simp only [Arrival.gap]
    omega
  rw [Run.lo_block] at hlo
  exact Run.mem_of_lt_hi (fun x hx => clear_windows hw x ((run_sublist hr).subset hx)) hlo
    (by omega)

end Runs

/-- An outage is covered after bridging just when it leads the windows behind it, which is when the
window that it is joined to starts no later than it does. -/
theorem covered_iff_leads (sent : UInt64) (capture : List Observation) (w : Window)
    (hw : w ∈ (ofCapture sent capture).outages) :
    let d := ofCapture sent capture
    ((∃ m ∈ bridge d.outages d.duplications, m.Covers w) ↔ d.Leads w) ∧
      ∀ r ∈ runs d.windows, ⟨w, true⟩ ∈ r.windows →
        (r.block.window.startId ≤ w.startId ↔ d.Leads w) := by
  intro d
  have hstart : ∀ r : Run, r.block.window.startId ≤ w.startId ↔
      r.head.lo ≤ (⟨w, true⟩ : Block).lo := fun r => by
    rw [UInt64.le_iff_toNat_le, ← Run.lo_block]; rfl
  refine ⟨⟨?_, fun hl => ?_⟩, fun r hr hwr => ?_⟩
  · rintro ⟨m, hm, hcov⟩
    obtain ⟨r, hr, -, rfl⟩ := mem_bridge.mp hm
    exact leads_of_lo_head_le hw hr (mem_of_covers hw hr hcov) ((hstart r).mp hcov.1)
  · obtain ⟨r, hr, hwr⟩ := exists_run hw
    exact ⟨r.block.window, mem_bridge.mpr ⟨r, hr, Run.outage_block_of_mem hwr rfl, rfl⟩,
      covers_block hwr (lo_head_le hl hr hwr)⟩
  · rw [hstart]
    exact ⟨leads_of_lo_head_le hw hr hwr, fun hl => lo_head_le hl hr hwr⟩

/-- The packets behind the second gap arrive before all others: the first gap is not covered. -/
theorem covered_iff_leads_late :
    let capture : List Observation :=
      [⟨5, 0.0⟩, ⟨7, 0.25⟩, ⟨0, 1.0⟩, ⟨2, 1.25⟩, ⟨3, 1.5⟩, ⟨4, 1.75⟩]
    let d := Delivery.ofCapture 8 capture
    let bridged := bridge d.outages d.duplications
    (⟨0, 2, 1.0, 1.25⟩ ∈ d.outages ∧ ¬ ∃ m ∈ bridged, m.Covers ⟨0, 2, 1.0, 1.25⟩) ∧
      ⟨5, 7, 0.0, 0.25⟩ ∈ d.outages ∧ ∃ m ∈ bridged, m.Covers ⟨5, 7, 0.0, 0.25⟩ := by
  intro capture d bridged
  have hout : d.outages = [⟨0, 2, 1.0, 1.25⟩, ⟨5, 7, 0.0, 0.25⟩] := by rfl
  have hfirst : ⟨0, 2, 1.0, 1.25⟩ ∈ d.outages := by rw [hout]; simp
  have hsecond : ⟨5, 7, 0.0, 0.25⟩ ∈ d.outages := by rw [hout]; simp
  refine ⟨⟨hfirst, ?_⟩, hsecond, ?_⟩
  · rw [(covered_iff_leads 8 capture _ hfirst).1]
    decide
  · rw [(covered_iff_leads 8 capture _ hsecond).1]
    decide

end Delivery

end Switchover
