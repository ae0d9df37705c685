import Mathlib
import Switchover.Proofs.Bridge.Runs

/-!
Bridging again. What bridging leaves is already bridged: neither on its own nor among the same
duplications does a second pass join, extend or drop any of it. The second pass sorts the bridged
outages among the duplications, where one may come to stand before duplications of its own time
that preceded it in the first pass. Those lie wholly before its first id, so it takes them in
unchanged.
-/
namespace Switchover

open Run (outageBlocks)

/-- A sequence of windows in which joining changes no outage, read on from a block if there is one:
outages touch nothing before them, and duplications that touch an outage reach no further. -/
inductive Settled : Option Block → List Block → Prop
  | nil (c : Option Block) : Settled c []
  | opens {c : Option Block} {b : Block} {rest : List Block} :
      (∀ a ∈ c, ¬ a.touches b = true) → Settled (some b) rest → Settled c (b :: rest)
  | absorbs {a b : Block} {rest : List Block} :
      a.touches b = true → b.outage = false → (a.outage = true → b.hi ≤ a.hi) →
      Settled (some (a.join b)) rest → Settled (some a) (b :: rest)

namespace Settled

/-- Chaining a settled sequence leaves its outages as they are. -/
theorem filter_chain {l : List Block} {c : Block} (h : Settled (some c) l) :
    (Block.chain c l).filter (·.outage) = (c :: l).filter (·.outage) := by
  induction l generalizing c with
  | nil => rfl
  | cons b rest ih =>
    cases h with
    | opens hc hrest =>
      rw [Block.chain, if_neg (hc c rfl), List.filter_cons, ih hrest, ← List.filter_cons]
    | absorbs hc hb hreach hrest =>
      rw [Block.chain, if_pos hc, ih hrest]
      cases ha : c.outage with
      | true => rw [Block.join_eq_self ha (hreach ha)]; simp [ha, hb]
      | false => simp [ha, hb]

/-- After a duplication that is no outage, any further duplications lead to another such. -/
theorem append_dups {P : Nat → Prop} {dups rest : List Block} {a : Block} (ha : a.outage = false)
    (hP : P a.hi) (hdups : ∀ b ∈ dups, b.outage = false ∧ P b.hi)
    (hrest : ∀ c : Block, c.outage = false → P c.hi → Settled (some c) rest) :
    Settled (some a) (dups ++ rest) := by
  induction dups generalizing a with
  | nil => exact hrest a ha hP
  | cons b dups ih =>
    obtain ⟨hb, hPb⟩ := hdups b (List.mem_cons_self ..)
    have hdups' := fun c hc => hdups c (List.mem_cons_of_mem b hc)
    by_cases htouch : a.touches b = true
    · refine absorbs htouch hb (by simp [ha]) (ih (by simp [ha, hb]) ?_ hdups')
      rw [Block.hi_join]
      rcases max_choice a.hi b.hi with hc | hc <;> rw [hc] <;> assumption
    · exact opens (by simpa using htouch) (ih hb hPb hdups')

/-- Duplications that reach no further than an outage leave it as it is. -/
theorem append_absorbed {dups rest : List Block} {a : Block} (ha : a.outage = true)
    (hdups : ∀ b ∈ dups, b.outage = false ∧ b.lo ≤ b.hi ∧ b.hi ≤ a.hi)
    (hrest : Settled (some a) rest) : Settled (some a) (dups ++ rest) := by
  induction dups with
  | nil => exact hrest
  | cons b dups ih =>
    obtain ⟨hb, hlo, hhi⟩ := hdups b (List.mem_cons_self ..)
    refine absorbs (Block.touches_iff.mpr (by omega)) hb (fun _ => hhi) ?_
    rw [Block.join_eq_self ha hhi]
    exact ih fun c hc => hdups c (List.mem_cons_of_mem b hc)

end Settled

/-- Whether `a` may stand before `b`: outages precede duplications of the same time. -/
def Block.Precedes (a b : Block) : Prop :=
  a.rank < b.rank ∨ a.rank = b.rank ∧ (b.outage = true → a.outage = true)

theorem Block.Precedes.rank_le {a b : Block} (h : a.Precedes b) : a.rank ≤ b.rank := by
  rcases h with h | ⟨h, -⟩ <;> omega

/-- The state of the second pass before the runs `rs` of the first one: the block reached, and the
duplications of earlier runs that are `late`, since they share the time of the next outage. -/
structure Pending (c : Option Block) (late : List Block) (rs : List Run) : Prop where
  order : (late ++ rs.flatMap Run.windows).Pairwise Block.Precedes
  dups : ∀ b ∈ late ++ rs.flatMap Run.windows, b.outage = false → b.lo ≤ b.hi
  late_dups : ∀ b ∈ late, b.outage = false
  apart : rs.IsChain Run.Apart
  reach : ∀ m ∈ (outageBlocks rs).head?, ∀ a ∈ c, a.hi + 1 < m.lo
  ties : ∀ b ∈ late, ∃ m ∈ (outageBlocks rs).head?, m.rank ≤ b.rank
  late_reach : ∀ b ∈ late, ∀ m ∈ (outageBlocks rs).head?, b.hi + 1 < m.lo
  next : late = [] → ∀ a ∈ c, a.outage = true → ∀ r ∈ rs.head?, a.hi + 1 < r.head.lo

/-- The duplications among some windows. -/
def dupBlocks (l : List Block) : List Block :=
  l.filter (!·.outage)

theorem mem_dupBlocks {b : Block} {l : List Block} :
    b ∈ dupBlocks l ↔ b ∈ l ∧ b.outage = false := by
  simp [dupBlocks]

theorem dupBlocks_append (l l' : List Block) : dupBlocks (l ++ l') = dupBlocks l ++ dupBlocks l' :=
  List.filter_append ..

theorem dupBlocks_eq_self {l : List Block} (h : ∀ b ∈ l, b.outage = false) : dupBlocks l = l :=
  List.filter_eq_self.mpr fun b hb => by simp [h b hb]

namespace Pending
variable {c : Option Block} {late : List Block} {r : Run} {rs : List Run}

theorem sublist (late : List Block) (r : Run) (rs : List Run) :
    (late ++ dupBlocks r.windows).Sublist (late ++ (r :: rs).flatMap Run.windows) :=
  (List.filter_sublist.trans (List.sublist_append_left ..)).append_left late

theorem ascending (h : Pending c late (r :: rs)) :
    Ascending Block.rank (late ++ dupBlocks r.windows) :=
  (h.order.sublist (sublist late r rs)).imp Block.Precedes.rank_le

theorem outage_eq_false (h : Pending c late (r :: rs)) :
    ∀ b ∈ late ++ dupBlocks r.windows, b.outage = false := by
  intro b hb
  rcases List.mem_append.mp hb with hb | hb
  · exact h.late_dups b hb
  · exact (mem_dupBlocks.mp hb).2

/-- Moving on behind a run with what is late then. -/
theorem move (h : Pending c late (r :: rs)) {c' : Option Block} {front back : List Block}
    (hsplit : late ++ dupBlocks r.windows = front ++ back)
    (hreach : ∀ m ∈ (outageBlocks rs).head?, ∀ a ∈ c', a.hi + 1 < m.lo)
    (hties : ∀ b ∈ back, ∃ m ∈ (outageBlocks rs).head?, m.rank ≤ b.rank)
    (hlate : ∀ b ∈ late ++ dupBlocks r.windows, ∀ m ∈ (outageBlocks rs).head?, b.hi + 1 < m.lo)
    (hnext : back = [] → ∀ a ∈ c', a.outage = true → ∀ s ∈ rs.head?, a.hi + 1 < s.head.lo) :
    Pending c' back rs := by
  have hback : back.Sublist (late ++ dupBlocks r.windows) :=
    hsplit ▸ List.sublist_append_right front back
  have hsub : (back ++ rs.flatMap Run.windows).Sublist (late ++ (r :: rs).flatMap Run.windows) := by
    rw [List.flatMap_cons, ← List.append_assoc]
    exact (hback.trans (List.filter_sublist.append_left late)).append_right _
  exact ⟨h.order.sublist hsub, fun b hb => h.dups b (hsub.subset hb),
    fun b hb => h.outage_eq_false b (hback.subset hb), h.apart.tail, hreach, hties,
    fun b hb => hlate b (hback.subset hb), hnext⟩

/-- Behind a run of duplications only, all of them lie apart from the next outage. -/
theorem late_lt_of_dups (h : Pending c late (r :: rs)) (hr : r.block.outage = false) :
    ∀ b ∈ late ++ dupBlocks r.windows, ∀ m ∈ (outageBlocks rs).head?, b.hi + 1 < m.lo := by
  intro b hb m hm
  rcases List.mem_append.mp hb with hb | hb
  · exact h.late_reach b hb m (by rw [Run.outageBlocks_cons_of_not hr]; exact hm)
  · have hlt := Run.lt_of_apart h.apart (fun x hx => h.dups x (by simp [hx])) m hm
    have := Run.hi_le_block (mem_dupBlocks.mp hb).1
    omega

/-- An outage reached does not touch the next duplication before the next outage: it ends apart from
the next run, and that run comes first unless others are late. -/
theorem not_touches (h : Pending c late (r :: rs)) (hr : r.block.outage = false) {b : Block}
    {front back : List Block} (hsplit : late ++ dupBlocks r.windows = b :: front ++ back)
    (hb : ∀ m ∈ (outageBlocks rs).head?, b.rank < m.rank) {a : Block} (hac : a ∈ c)
    (ha : a.outage = true) : ¬ a.touches b = true := by
  cases late with
  | nil =>
    have hwin : dupBlocks r.windows = r.windows :=
      dupBlocks_eq_self fun x hx => Run.outage_eq_false_of_mem hx hr
    rw [List.nil_append, hwin] at hsplit
    obtain rfl : r.head = b := (List.cons.inj hsplit).1
    have hnext := h.next rfl a hac ha r rfl
    rw [Block.touches_iff]
    omega
  | cons d late =>
    obtain rfl : d = b := (List.cons.inj hsplit).1
    obtain ⟨m, hm, hle⟩ := h.ties d (List.mem_cons_self ..)
    rw [Run.outageBlocks_cons_of_not hr] at hm
    have := hb m hm
    omega

/-- A run of duplications only is taken in as far as it lies before the next outage. -/
theorem settled_dups (h : Pending c late (r :: rs)) (hr : r.block.outage = false)
    {front back rest : List Block} (hsplit : late ++ dupBlocks r.windows = front ++ back)
    (hfront : ∀ b ∈ front, ∀ m ∈ (outageBlocks rs).head?, b.rank < m.rank)
    (hback : ∀ b ∈ back, ∃ m ∈ (outageBlocks rs).head?, m.rank ≤ b.rank)
    (hrest : ∀ c', Pending c' back rs → Settled c' rest) : Settled c (front ++ rest) := by
  have hms : outageBlocks (r :: rs) = outageBlocks rs := Run.outageBlocks_cons_of_not hr
  have hlate := h.late_lt_of_dups hr
  let P : Nat → Prop := fun n => ∀ m ∈ (outageBlocks rs).head?, n + 1 < m.lo
  have hdups : ∀ b ∈ front, b.outage = false ∧ P b.hi := by
    intro b hb
    have hb' : b ∈ late ++ dupBlocks r.windows := hsplit ▸ List.mem_append_left back hb
    exact ⟨h.outage_eq_false b hb', hlate b hb'⟩
  -- behind duplications the block reached is a duplication, so that nothing more is to be shown
  have hend : ∀ a : Block, a.outage = false → P a.hi → Settled (some a) rest := fun a ha hP =>
    hrest _ (h.move hsplit (fun m hm x hx => by cases hx; exact hP m hm) hback hlate
      fun _ x hx hxo => by cases hx; simp [ha] at hxo)
  cases front with
  | nil =>
    refine hrest c (h.move hsplit (hms ▸ h.reach) hback hlate fun hnil => ?_)
    rw [hnil, dupBlocks_eq_self fun x hx => Run.outage_eq_false_of_mem hx hr] at hsplit
    simp [Run.windows] at hsplit
  | cons b front =>
    obtain ⟨hb, hPb⟩ := hdups b (List.mem_cons_self ..)
    have hdups' := fun x hx => hdups x (List.mem_cons_of_mem b hx)
    by_cases hc : ∀ a ∈ c, ¬ a.touches b = true
    · exact .opens hc (.append_dups (P := P) hb hPb hdups' hend)
    · push Not at hc
      obtain ⟨a, rfl, htouch⟩ := hc
      cases ha : a.outage with
      | false =>
        exact .append_dups (P := P) ha (fun m hm => h.reach m (hms ▸ hm) a rfl) hdups hend
      | true =>
        exact absurd htouch (h.not_touches hr hsplit (hfront b (List.mem_cons_self ..)) rfl ha)

/-- What is late before a run with an outage ends before it: the first window of the run shares the
time of the late ones but comes after them, and so is a duplication as well. -/
theorem late_le_block (h : Pending c late (r :: rs)) (hr : r.block.outage = true) :
    ∀ b ∈ late, b.hi ≤ r.block.hi := by
  intro b hb
  have hms : outageBlocks (r :: rs) = r.block :: outageBlocks rs :=
    Run.outageBlocks_cons_of_outage hr
  have hlt := h.late_reach b hb r.block (by simp [hms])
  obtain ⟨m, hm, hle⟩ := h.ties b hb
  obtain rfl : r.block = m := by simpa [hms] using hm
  have hprec := (List.pairwise_append.mp h.order).2.2 b hb r.head (by simp [Run.windows])
  have hdup : r.head.outage = false := by
    rw [Run.rank_block] at hle
    rcases hprec with hlt | ⟨-, himp⟩
    · omega
    · by_contra hne
      have := himp (by simpa using hne)
      rw [h.late_dups b hb] at this
      exact absurd this (by decide)
  have hproper := h.dups r.head (by simp [Run.windows]) hdup
  have := Run.hi_le_block r.head_mem_windows
  rw [Run.lo_block] at hlt
  omega

/-- A run with an outage comes first of all, and what is late or duplicated in it is taken in. -/
theorem settled_outage (h : Pending c late (r :: rs)) (hr : r.block.outage = true)
    {front back rest : List Block} (hsplit : late ++ dupBlocks r.windows = front ++ back)
    (hback : ∀ b ∈ back, ∃ m ∈ (outageBlocks rs).head?, m.rank ≤ b.rank)
    (hrest : ∀ c', Pending c' back rs → Settled c' rest) :
    Settled c (r.block :: (front ++ rest)) := by
  have hms : outageBlocks (r :: rs) = r.block :: outageBlocks rs :=
    Run.outageBlocks_cons_of_outage hr
  have hreach : ∀ m ∈ (outageBlocks rs).head?, r.block.hi + 1 < m.lo :=
    Run.lt_of_apart h.apart fun x hx => h.dups x (by simp [hx])
  have hin : ∀ b ∈ late ++ dupBlocks r.windows, b.hi ≤ r.block.hi := by
    intro b hb
    rcases List.mem_append.mp hb with hb | hb
    · exact h.late_le_block hr b hb
    · exact Run.hi_le_block (mem_dupBlocks.mp hb).1
  refine .opens (fun a ha => ?_) (.append_absorbed hr (fun b hb => ?_) (hrest _ ?_))
  · have := h.reach r.block (by simp [hms]) a ha
    rw [Block.touches_iff]
    omega
  · have hb' : b ∈ late ++ dupBlocks r.windows := hsplit ▸ List.mem_append_left back hb
    have hdup := h.outage_eq_false b hb'
    exact ⟨hdup, h.dups b ((sublist late r rs).subset hb') hdup, hin b hb'⟩
  · refine h.move hsplit (fun m hm a ha => by cases ha; exact hreach m hm) hback
      (fun b hb m hm => ?_) fun _ a ha _ s hs => ?_
    · have := hin b hb
      have := hreach m hm
      omega
    · cases ha
      cases rs with
      | nil => simp at hs
      | cons t rs =>
        obtain rfl : t = s := by simpa using hs
        exact (List.isChain_cons_cons.mp h.apart).1

/-- A run with an outage stands before all that is late or follows it. -/
theorem rank_block_le (h : Pending c late (r :: rs)) (hr : r.block.outage = true) :
    ∀ b ∈ late ++ dupBlocks (r.windows ++ rs.flatMap Run.windows), r.block.rank ≤ b.rank := by
  intro b hb
  rcases List.mem_append.mp hb with hb | hb
  · obtain ⟨m, hm, hle⟩ := h.ties b hb
    obtain rfl : r.block = m := by simpa [Run.outageBlocks_cons_of_outage hr] using hm
    exact hle
  · have hasc : Ascending Block.rank (r.head :: (r.tail ++ rs.flatMap Run.windows)) :=
      (List.pairwise_append.mp h.order).2.1.imp Block.Precedes.rank_le
    rw [Run.rank_block]
    exact hasc.head_le (mem_dupBlocks.mp hb).1

/-- Merging the bridged outages into the duplications gives a settled sequence. -/
theorem settled_merge {rs : List Run} {c : Option Block} {late : List Block}
    (h : Pending c late rs) :
    Settled c (mergeByRank Block.rank (outageBlocks rs)
      (late ++ dupBlocks (rs.flatMap Run.windows))) := by
  induction rs generalizing c late with
  | nil =>
    obtain rfl : late = [] := List.eq_nil_iff_forall_not_mem.mpr fun b hb => by
      obtain ⟨m, hm, -⟩ := h.ties b hb
      simp [outageBlocks] at hm
    simpa [mergeByRank, outageBlocks, dupBlocks] using Settled.nil c
  | cons r rs ih =>
    obtain ⟨front, back, hsplit, hfront, hback⟩ := exists_split (outageBlocks rs) h.ascending
    have hfirst := h.rank_block_le
    rw [List.flatMap_cons, dupBlocks_append, ← List.append_assoc, hsplit, List.append_assoc]
    rw [dupBlocks_append, ← List.append_assoc, hsplit, List.append_assoc] at hfirst
    cases hr : r.block.outage with
    | false =>
      rw [Run.outageBlocks_cons_of_not hr, mergeByRank_append_of_lt hfront]
      exact h.settled_dups hr hsplit hfront hback fun c' hc' => ih hc'
    | true =>
      rw [Run.outageBlocks_cons_of_outage hr, mergeByRank_cons_of_le (hfirst hr),
        mergeByRank_append_of_lt hfront]
      exact h.settled_outage hr hsplit hback fun c' hc' => ih hc'

end Pending

/-! ### The second pass -/

theorem Settled.of_isChain {l : List Block} {c : Option Block}
    (h : l.IsChain fun a b => a.hi + 1 < b.lo) (hc : ∀ b ∈ l.head?, ∀ a ∈ c, a.hi + 1 < b.lo) :
    Settled c l := by
  induction l generalizing c with
  | nil => exact .nil c
  | cons b rest ih =>
    obtain ⟨hb, hrest⟩ := List.isChain_cons.mp h
    refine .opens (fun a ha => ?_) (ih hrest fun d hd a ha => by cases ha; exact hb d hd)
    have := hc b rfl a ha
    rw [Block.touches_iff]
    omega

section Pass
variable {outages : List Window} {duplications : List Duplication}

theorem dupBlocks_windowsByTime :
    dupBlocks (windowsByTime outages duplications) =
      sortByRank Block.rank (duplications.map fun d => ⟨d.window, false⟩) := by
  have hout : ∀ b ∈ outages.map (Block.mk · true), ¬ (!b.outage) = true := by simp
  have hdup : ∀ b ∈ duplications.map (fun d => Block.mk d.window false), (!b.outage) = true := by
    simp
  rw [dupBlocks, windowsByTime_eq, filter_sortByRank, List.filter_append,
    List.filter_eq_nil_iff.mpr hout, List.filter_eq_self.mpr hdup, List.nil_append]

/-- Bridging leaves outages alone that ascend in time and settle among the duplications. -/
theorem bridge_of_settled (h : Settled none (windowsByTime outages duplications))
    (hasc : Ascending Block.rank (outages.map (⟨·, true⟩))) :
    bridge outages duplications = outages := by
  have hfilter : (windowsByTime outages duplications).filter (·.outage) = _ :=
    filter_outage_windowsByTime ..
  rw [sortByRank_of_ascending hasc] at hfilter
  rw [bridge]
  cases hw : windowsByTime outages duplications with
  | nil =>
    rw [hw] at hfilter
    simpa using hfilter
  | cons b rest =>
    rw [hw] at h hfilter
    cases h with
    | opens _ hrest =>
      simp only [hrest.filter_chain, hfilter, List.map_map]
      exact List.map_id _

/-- The outages that bridging leaves, as blocks. -/
theorem map_bridge : (bridge outages duplications).map (⟨·, true⟩) =
    outageBlocks (runs (windowsByTime outages duplications)) := by
  rw [bridge_eq, List.map_map]
  refine (List.map_congr_left fun b hb => ?_).trans (List.map_id _)
  obtain ⟨r, -, hout, rfl⟩ := Run.mem_outageBlocks.mp hb
  exact congrArg (Block.mk _) hout.symm

theorem proper_of_duplications (h : ∀ d ∈ duplications, d.window.startId ≤ d.window.endId) :
    ∀ b ∈ windowsByTime outages duplications, b.outage = false → b.lo ≤ b.hi := by
  intro b hb hout
  rcases (mem_windowsByTime ..).mp hb with ⟨w, -, rfl⟩ | ⟨d, hd, rfl⟩
  · exact absurd hout Bool.noConfusion
  · exact UInt64.le_iff_toNat_le.mp (h d hd)

theorem precedes_windowsByTime :
    (windowsByTime outages duplications).Pairwise Block.Precedes :=
  (pairwise_windowsByTime outages duplications
    (List.pairwise_of_forall (R := fun _ _ => True) fun _ _ => trivial)).imp
      fun h => h.imp id fun h => ⟨h.1, fun hb => (h.2 hb).1⟩

/-- The second pass starts before all runs of the first one, and nothing is late. -/
theorem pending_runs (h : ∀ d ∈ duplications, d.window.startId ≤ d.window.endId) :
    Pending none [] (runs (windowsByTime outages duplications)) where
  order := by rw [List.nil_append, flatMap_windows_runs]; exact precedes_windowsByTime
  dups := by rw [List.nil_append, flatMap_windows_runs]; exact proper_of_duplications h
  late_dups := by simp
  apart := apart_runs _
  reach := by simp
  ties := by simp
  late_reach := by simp
  next := by simp

end Pass

/-- Bridging bridged outages again changes nothing, on their own as well as among the duplications
they were bridged with, and where there was an outage there still is one. -/
theorem bridge_bridge (outages : List Window) (duplications : List Duplication)
    (h : ∀ d ∈ duplications, d.window.startId ≤ d.window.endId) :
    bridge (bridge outages duplications) [] = bridge outages duplications ∧
      bridge (bridge outages duplications) duplications = bridge outages duplications ∧
      (outages ≠ [] → bridge outages duplications ≠ []) := by
  have hflat := flatMap_windows_runs (windowsByTime outages duplications)
  have hasc : Ascending Block.rank ((bridge outages duplications).map (⟨·, true⟩)) := by
    rw [map_bridge]
    refine Run.ascending_outageBlocks ?_
    rw [hflat]
    exact ascending_sortByRank _
  refine ⟨bridge_of_settled ?_ hasc, bridge_of_settled ?_ hasc, fun hne => ?_⟩
  · -- alone: the outages lie apart
    rw [windowsByTime_eq, List.map_nil, List.append_nil, sortByRank_of_ascending hasc, map_bridge]
    refine Settled.of_isChain (Run.isChain_outageBlocks (apart_runs _) ?_) (by simp)
    rw [hflat]
    exact proper_of_duplications h
  · -- among the duplications of the first pass
    have hpending : Pending none [] (runs (windowsByTime outages duplications)) := pending_runs h
    have hsettled := hpending.settled_merge
    rw [List.nil_append, hflat, dupBlocks_windowsByTime, ← map_bridge] at hsettled
    rw [windowsByTime_eq, sortByRank_append hasc]
    exact hsettled
  · obtain ⟨w, hw⟩ := List.exists_mem_of_ne_nil outages hne
    have hmem : (⟨w, true⟩ : Block) ∈ (runs (windowsByTime outages duplications)).flatMap
        Run.windows := by
      rw [hflat]
      exact (mem_windowsByTime ..).mpr (.inl ⟨w, hw, rfl⟩)
    obtain ⟨r, hr, hwr⟩ := List.mem_flatMap.mp hmem
    rw [bridge_eq]
    exact List.ne_nil_of_mem (List.mem_map_of_mem
      (Run.mem_outageBlocks.mpr ⟨r, hr, Run.outage_block_of_mem hwr rfl, rfl⟩))

/-- Duplicates arrive between two outages, and one more arrives at the time of the first. -/
theorem bridge_bridge_flood :
    let outages : List Window := [⟨66, 68, 6.6, 6.8⟩, ⟨70, 73, 7.0, 7.3⟩]
    let flood : List Duplication := [⟨⟨69, 69, 6.9, 6.9⟩, 8⟩, ⟨⟨40, 40, 6.6, 6.6⟩, 1⟩]
    (∀ d ∈ flood, d.window.startId ≤ d.window.endId) ∧
      bridge (bridge outages flood) [] = bridge outages flood ∧
      bridge (bridge outages flood) flood = bridge outages flood ∧
      (outages ≠ [] → bridge outages flood ≠ []) :=
  have h : ∀ d ∈ ([⟨⟨69, 69, 6.9, 6.9⟩, 8⟩, ⟨⟨40, 40, 6.6, 6.6⟩, 1⟩] : List Duplication),
      d.window.startId ≤ d.window.endId := by decide
  ⟨h, bridge_bridge _ _ h⟩

end Switchover
