import Mathlib
import Switchover.Proofs.Bridge.Order

/-!
Runs of windows. The windows in the order of time fall into runs: in a run every window touches
what the windows before it have joined to, and the first window of a run does not touch the run
before. Each run joins to one block, which keeps the start of its first window, reaches as far as
any of its windows, and is an outage if one of them is. Bridging keeps the blocks that are outages.
-/
namespace Switchover

/-- No id lies behind the last one, so that a block which reaches it touches every window. -/
theorem toNat_nextId (id : UInt64) : (nextId id).toNat = min (id.toNat + 1) (2 ^ 64 - 1) := by
  have hid := id.toNat_lt
  have hsize : UInt64.size = 2 ^ 64 := rfl
  rw [nextId, hsize]
  split_ifs with h
  · omega
  · rw [UInt64.toNat_add, UInt64.toNat_one, Nat.mod_eq_of_lt (by omega)]
    omega

namespace Block

/-- The first id of a block. -/
def lo (b : Block) : Nat := b.window.startId.toNat

/-- The last id of a block. -/
def hi (b : Block) : Nat := b.window.endId.toNat

/-- The place in time of a block. -/
def rank (b : Block) : Int := timeRank b.window.startTime

theorem touches_iff {a b : Block} : a.touches b = true ↔ b.lo ≤ a.hi + 1 := by
  have hb := b.window.startId.toNat_lt
  rw [touches, decide_eq_true_iff, UInt64.le_iff_toNat_le, toNat_nextId, lo, hi]
  omega

variable (a b : Block)

@[simp] theorem startId_join : (a.join b).window.startId = a.window.startId := by
  simp only [join]; split_ifs <;> rfl

@[simp] theorem startTime_join : (a.join b).window.startTime = a.window.startTime := by
  simp only [join]; split_ifs <;> rfl

@[simp] theorem outage_join : (a.join b).outage = (a.outage || b.outage) := rfl

theorem hi_join : (a.join b).hi = max a.hi b.hi := by
  rw [join, hi]
  by_cases h : a.window.endId < b.window.endId
  · rw [if_pos h]
    exact (Nat.max_eq_right (UInt64.lt_iff_toNat_lt.mp h).le).symm
  · rw [if_neg h]
    exact (Nat.max_eq_left (Nat.not_lt.mp (mt UInt64.lt_iff_toNat_lt.mpr h))).symm

variable {a b}

/-- An outage that reaches as far already does not change. -/
theorem join_eq_self (ha : a.outage = true) (hb : b.hi ≤ a.hi) : a.join b = a := by
  have hlt : ¬ a.window.endId < b.window.endId := by
    rw [UInt64.lt_iff_toNat_lt]
    exact Nat.not_lt.mpr hb
  rw [join, if_neg hlt, ha, Bool.true_or, ← ha]

/-- Whether each window touches what the block and the windows before it have joined to. -/
def Absorbs : Block → List Block → Prop
  | _, [] => True
  | a, b :: rest => a.touches b = true ∧ (a.join b).Absorbs rest

theorem absorbs_append {a : Block} {l l' : List Block} :
    a.Absorbs (l ++ l') ↔ a.Absorbs l ∧ (l.foldl join a).Absorbs l' := by
  induction l generalizing a with
  | nil => simp [Absorbs]
  | cons b l ih => simp [Absorbs, ih, and_assoc]

end Block

/-- Windows that join to one block: a first one, and those that it absorbs. -/
structure Run where
  head : Block
  tail : List Block
  absorbs : head.Absorbs tail

namespace Run

/-- The windows of a run in the order of time. -/
def windows (r : Run) : List Block := r.head :: r.tail

/-- What the windows of a run join to. -/
def block (r : Run) : Block := r.tail.foldl Block.join r.head

/-- The run of a single window. -/
def single (b : Block) : Run := ⟨b, [], trivial⟩

/-- A run with one more window. -/
def push (r : Run) (b : Block) (h : r.block.touches b = true) : Run :=
  ⟨r.head, r.tail ++ [b], Block.absorbs_append.mpr ⟨r.absorbs, h, trivial⟩⟩

/-- Whether the first window of `s` does not touch `r`. -/
def Apart (r s : Run) : Prop := r.block.hi + 1 < s.head.lo

/-- Goes through further windows, which extend the run as long as they touch it. -/
def cut (r : Run) : List Block → List Run
  | [] => [r]
  | b :: rest =>
    if h : r.block.touches b = true then (r.push b h).cut rest else r :: (single b).cut rest

end Run

/-- The runs of windows listed in the order of time. -/
def runs : List Block → List Run
  | [] => []
  | b :: rest => (Run.single b).cut rest

namespace Run

theorem block_push (r : Run) (b : Block) (h : r.block.touches b = true) :
    (r.push b h).block = r.block.join b := by
  rw [block, push, List.foldl_append]; rfl

theorem windows_push (r : Run) (b : Block) (h : r.block.touches b = true) :
    (r.push b h).windows = r.windows ++ [b] := rfl

/-! ### The runs and the windows they are cut from -/

/-- The blocks of the runs are what chaining the windows gives. -/
theorem map_block_cut (rest : List Block) (r : Run) :
    (r.cut rest).map block = Block.chain r.block rest := by
  induction rest generalizing r with
  | nil => rfl
  | cons b rest ih =>
    rw [cut, Block.chain]
    split_ifs with h
    · rw [ih, block_push]
    · rw [List.map_cons, ih]; rfl

theorem flatMap_windows_cut (rest : List Block) (r : Run) :
    (r.cut rest).flatMap windows = r.windows ++ rest := by
  induction rest generalizing r with
  | nil => simp [cut]
  | cons b rest ih =>
    rw [cut]
    split_ifs with h
    · rw [ih, windows_push, List.append_assoc]; rfl
    · rw [List.flatMap_cons, ih]; rfl

theorem cut_eq_cons (rest : List Block) (r : Run) :
    ∃ r' rs, r.cut rest = r' :: rs ∧ r'.head = r.head := by
  induction rest generalizing r with
  | nil => exact ⟨r, [], rfl, rfl⟩
  | cons b rest ih =>
    rw [cut]
    split_ifs with h
    · exact ih (r.push b h)
    · exact ⟨r, _, rfl, rfl⟩

theorem apart_cut (rest : List Block) (r : Run) : (r.cut rest).IsChain Apart := by
  induction rest generalizing r with
  | nil => exact List.isChain_singleton r
  | cons b rest ih =>
    rw [cut]
    split_ifs with h
    · exact ih (r.push b h)
    · obtain ⟨r', rs, hcut, hhead⟩ := cut_eq_cons rest (single b)
      have hrest := ih (single b)
      rw [hcut] at hrest ⊢
      refine List.isChain_cons_cons.mpr ⟨?_, hrest⟩
      rw [Apart, hhead]
      exact not_le.mp (mt Block.touches_iff.mpr h)

/-! ### The block of a run -/

/-- Joining windows keeps where and when the first one starts. -/
theorem start_foldl_join (a : Block) (l : List Block) :
    (l.foldl Block.join a).window.startId = a.window.startId ∧
      (l.foldl Block.join a).window.startTime = a.window.startTime := by
  induction l generalizing a with
  | nil => exact ⟨rfl, rfl⟩
  | cons b l ih => simpa using ih (a.join b)

theorem outage_foldl_join (a : Block) (l : List Block) :
    (l.foldl Block.join a).outage = (a :: l).any (·.outage) := by
  induction l generalizing a with
  | nil => simp
  | cons b l ih => simp [ih, Bool.or_assoc]

theorem hi_foldl_join (a : Block) (l : List Block) :
    ∀ b ∈ a :: l, b.hi ≤ (l.foldl Block.join a).hi := by
  induction l generalizing a with
  | nil => simp
  | cons b l ih =>
    have hjoin := ih (a.join b) (a.join b) (List.mem_cons_self ..)
    rw [Block.hi_join] at hjoin
    intro c hc
    rw [List.foldl_cons]
    rcases List.mem_cons.mp hc with rfl | hc
    · omega
    rcases List.mem_cons.mp hc with rfl | hc
    · omega
    · exact ih (a.join b) c (List.mem_cons_of_mem _ hc)

/-- The end of joined windows is that of the first one which reaches furthest. -/
theorem exists_split_foldl_join (a : Block) (l : List Block) :
    ∃ front b back, a :: l = front ++ b :: back ∧
      b.window.endId = (l.foldl Block.join a).window.endId ∧
      b.window.endTime = (l.foldl Block.join a).window.endTime ∧
      (∀ x ∈ front, x.hi < b.hi) ∧ ∀ x ∈ back, x.hi ≤ b.hi := by
  induction l using List.reverseRecOn with
  | nil => exact ⟨[], a, [], rfl, rfl, rfl, by simp, by simp⟩
  | append_singleton l c ih =>
    obtain ⟨front, b, back, hsplit, hid, htime, hfront, hback⟩ := ih
    have hhi : (l.foldl Block.join a).hi = b.hi := congrArg UInt64.toNat hid.symm
    rw [List.foldl_append, List.foldl_cons, List.foldl_nil, Block.join]
    split_ifs with hlt
    · -- the last window reaches further than all before it
      have hlt : b.hi < c.hi := hhi ▸ UInt64.lt_iff_toNat_lt.mp hlt
      refine ⟨a :: l, c, [], rfl, rfl, rfl, fun x hx => ?_, by simp⟩
      exact ((hi_foldl_join a l x hx).trans hhi.le).trans_lt hlt
    · have hle : c.hi ≤ b.hi := hhi ▸ not_lt.mp (mt UInt64.lt_iff_toNat_lt.mpr hlt)
      refine ⟨front, b, back ++ [c], ?_, hid, htime, hfront, fun x hx => ?_⟩
      · rw [← List.cons_append, hsplit, List.append_assoc, List.cons_append]
      · rcases List.mem_append.mp hx with hx | hx
        · exact hback x hx
        · obtain rfl := List.mem_singleton.mp hx
          exact hle

theorem exists_end_foldl_join (a : Block) (l : List Block) :
    ∃ b ∈ a :: l, b.window.endId = (l.foldl Block.join a).window.endId ∧
      b.window.endTime = (l.foldl Block.join a).window.endTime := by
  obtain ⟨front, b, back, hsplit, hid, htime, -⟩ := exists_split_foldl_join a l
  exact ⟨b, by simp [hsplit], hid, htime⟩

variable (r : Run)

theorem startId_block : r.block.window.startId = r.head.window.startId :=
  (start_foldl_join ..).1

theorem startTime_block : r.block.window.startTime = r.head.window.startTime :=
  (start_foldl_join ..).2

@[simp] theorem lo_block : r.block.lo = r.head.lo := congrArg UInt64.toNat r.startId_block

@[simp] theorem rank_block : r.block.rank = r.head.rank := congrArg timeRank r.startTime_block

theorem outage_block : r.block.outage = r.windows.any (·.outage) := outage_foldl_join ..

theorem head_mem_windows : r.head ∈ r.windows := List.mem_cons_self ..

variable {r}

theorem hi_le_block {b : Block} (h : b ∈ r.windows) : b.hi ≤ r.block.hi :=
  hi_foldl_join r.head r.tail b h

theorem outage_block_of_mem {b : Block} (h : b ∈ r.windows) (hb : b.outage = true) :
    r.block.outage = true := by
  rw [outage_block, List.any_eq_true]
  exact ⟨b, h, hb⟩

theorem outage_eq_false_of_mem {b : Block} (h : b ∈ r.windows) (hr : r.block.outage = false) :
    b.outage = false := by
  by_contra hb
  rw [outage_block_of_mem h (by simpa using hb)] at hr
  exact absurd hr (by decide)

/-! ### The outages among the runs -/

/-- The blocks of the runs with an outage. -/
def outageBlocks (rs : List Run) : List Block :=
  (rs.map block).filter (·.outage)

theorem outageBlocks_cons_of_outage {rs : List Run} (h : r.block.outage = true) :
    outageBlocks (r :: rs) = r.block :: outageBlocks rs := by
  rw [outageBlocks, List.map_cons, List.filter_cons_of_pos h]; rfl

theorem outageBlocks_cons_of_not {rs : List Run} (h : r.block.outage = false) :
    outageBlocks (r :: rs) = outageBlocks rs := by
  rw [outageBlocks, List.map_cons, List.filter_cons_of_neg (by simp [h])]; rfl

theorem mem_outageBlocks {b : Block} {rs : List Run} :
    b ∈ outageBlocks rs ↔ ∃ r ∈ rs, r.block.outage = true ∧ r.block = b := by
  simp only [outageBlocks, List.mem_filter, List.mem_map]
  constructor
  · rintro ⟨⟨r, hr, rfl⟩, hb⟩; exact ⟨r, hr, hb, rfl⟩
  · rintro ⟨r, hr, hb, rfl⟩; exact ⟨⟨r, hr, rfl⟩, hb⟩

/-- Duplications between a run and the next outage only lie further apart from it than the run. -/
theorem lt_of_apart {r : Run} {rs : List Run} (h : (r :: rs).IsChain Apart)
    (hdup : ∀ b ∈ rs.flatMap windows, b.outage = false → b.lo ≤ b.hi) :
    ∀ m ∈ (outageBlocks rs).head?, r.block.hi + 1 < m.lo := by
  induction rs generalizing r with
  | nil => simp [outageBlocks]
  | cons s rs ih =>
    obtain ⟨hrs, hchain⟩ := List.isChain_cons_cons.mp h
    rw [Apart] at hrs
    cases hs : s.block.outage with
    | true =>
      rw [outageBlocks_cons_of_outage hs]
      simpa using hrs
    | false =>
      rw [outageBlocks_cons_of_not hs]
      intro m hm
      have hms := ih hchain (fun b hb => hdup b (by simp [hb])) m hm
      have hhead := hdup s.head (by simp [head_mem_windows])
        (outage_eq_false_of_mem s.head_mem_windows hs)
      have hreach := hi_le_block s.head_mem_windows
      omega

/-- The outages among the runs lie apart from one another. -/
theorem isChain_outageBlocks {rs : List Run} (h : rs.IsChain Apart)
    (hdup : ∀ b ∈ rs.flatMap windows, b.outage = false → b.lo ≤ b.hi) :
    (outageBlocks rs).IsChain fun a b => a.hi + 1 < b.lo := by
  induction rs with
  | nil => exact List.isChain_nil
  | cons r rs ih =>
    have hdup' : ∀ b ∈ rs.flatMap windows, b.outage = false → b.lo ≤ b.hi :=
      fun b hb => hdup b (by simp [hb])
    cases hr : r.block.outage with
    | true =>
      rw [outageBlocks_cons_of_outage hr]
      exact List.isChain_cons.mpr ⟨lt_of_apart h hdup', ih h.tail hdup'⟩
    | false =>
      rw [outageBlocks_cons_of_not hr]
      exact ih h.tail hdup'

theorem heads_sublist (rs : List Run) : (rs.map head).Sublist (rs.flatMap windows) := by
  induction rs with
  | nil => exact List.Sublist.slnil
  | cons r rs ih =>
    rw [List.map_cons, List.flatMap_cons]
    exact (ih.trans (List.sublist_append_right ..)).cons_cons r.head

/-- The outages keep the order of time. -/
theorem ascending_outageBlocks {rs : List Run} (h : Ascending Block.rank (rs.flatMap windows)) :
    Ascending Block.rank (outageBlocks rs) := by
  have hheads := h.sublist (heads_sublist rs)
  rw [List.pairwise_map] at hheads
  refine List.Pairwise.filter _ (List.pairwise_map.mpr (hheads.imp fun hab => ?_))
  simpa using hab

end Run

section Bridge
variable (outages : List Window) (duplications : List Duplication)

theorem flatMap_windows_runs (l : List Block) : (runs l).flatMap Run.windows = l := by
  cases l with
  | nil => rfl
  | cons b l => exact Run.flatMap_windows_cut l (Run.single b)

theorem apart_runs (l : List Block) : (runs l).IsChain Run.Apart := by
  cases l with
  | nil => exact List.isChain_nil
  | cons b l => exact Run.apart_cut l (Run.single b)

theorem windowsByTime_eq : windowsByTime outages duplications =
    sortByRank Block.rank
      (outages.map (⟨·, true⟩) ++ duplications.map fun d => ⟨d.window, false⟩) := rfl

/-- A run lists its windows in the order of all of them. -/
theorem Run.windows_sublist {l : List Block} {r : Run} (hr : r ∈ runs l) : r.windows.Sublist l := by
  have hsub : r.windows.Sublist ((runs l).flatMap windows) := by
    rw [List.flatMap_def]
    exact List.sublist_flatten_of_mem (List.mem_map_of_mem hr)
  rwa [flatMap_windows_runs] at hsub

/-- Every window lies in a run. -/
theorem exists_mem_runs {l : List Block} {b : Block} (hb : b ∈ l) :
    ∃ r ∈ runs l, b ∈ r.windows := by
  rw [← List.mem_flatMap, flatMap_windows_runs]
  exact hb

theorem mem_windowsByTime {b : Block} : b ∈ windowsByTime outages duplications ↔
    (∃ w ∈ outages, ⟨w, true⟩ = b) ∨ ∃ d ∈ duplications, ⟨d.window, false⟩ = b := by
  rw [windowsByTime_eq, mem_sortByRank, List.mem_append, List.mem_map, List.mem_map]

/-- All windows, whether outages or duplications. -/
def allWindows : List Window :=
  outages ++ duplications.map (·.window)

theorem mem_allWindows {w : Window} : w ∈ allWindows outages duplications ↔
    ∃ b ∈ windowsByTime outages duplications, b.window = w := by
  simp only [allWindows, mem_windowsByTime, List.mem_append, List.mem_map]
  constructor
  · rintro (hw | ⟨d, hd, rfl⟩)
    · exact ⟨⟨w, true⟩, .inl ⟨w, hw, rfl⟩, rfl⟩
    · exact ⟨⟨d.window, false⟩, .inr ⟨d, hd, rfl⟩, rfl⟩
  · rintro ⟨_, ⟨w, hw, rfl⟩ | ⟨d, hd, rfl⟩, rfl⟩
    · exact .inl hw
    · exact .inr ⟨d, hd, rfl⟩

theorem filter_outage_windowsByTime :
    (windowsByTime outages duplications).filter (·.outage) =
      sortByRank Block.rank (outages.map (⟨·, true⟩)) := by
  have hout : ∀ b ∈ outages.map (Block.mk · true), b.outage = true := by simp
  have hdup : ∀ b ∈ duplications.map (fun d => Block.mk d.window false), ¬ b.outage = true := by
    simp
  rw [windowsByTime_eq, filter_sortByRank, List.filter_append, List.filter_eq_self.mpr hout,
    List.filter_eq_nil_iff.mpr hdup, List.append_nil]

/-- At one time, outages come before duplications and keep an order that they were listed in. -/
theorem pairwise_windowsByTime {S : Window → Window → Prop} (h : outages.Pairwise S) :
    (windowsByTime outages duplications).Pairwise fun a b => a.rank < b.rank ∨
      a.rank = b.rank ∧ (b.outage = true → a.outage = true ∧ S a.window b.window) := by
  refine pairwise_sortByRank (List.pairwise_append.mpr ⟨?_, ?_, ?_⟩)
  · exact List.pairwise_map.mpr (h.imp fun hab _ => ⟨rfl, hab⟩)
  · exact List.pairwise_map.mpr (List.pairwise_of_forall fun _ _ h => absurd h Bool.noConfusion)
  · intro a _ b hb hout
    obtain ⟨d, -, rfl⟩ := List.mem_map.mp hb
    exact absurd hout Bool.noConfusion

/-- Bridging keeps the windows of the runs with an outage. -/
theorem bridge_eq : bridge outages duplications =
    (Run.outageBlocks (runs (windowsByTime outages duplications))).map (·.window) := by
  rw [bridge, Run.outageBlocks]
  cases windowsByTime outages duplications with
  | nil => rfl
  | cons b l => rw [runs, Run.map_block_cut]; rfl

theorem mem_bridge {m : Window} : m ∈ bridge outages duplications ↔
    ∃ r ∈ runs (windowsByTime outages duplications),
      r.block.outage = true ∧ r.block.window = m := by
  simp only [bridge_eq, List.mem_map, Run.mem_outageBlocks]
  constructor
  · rintro ⟨b, ⟨r, hr, hout, rfl⟩, rfl⟩; exact ⟨r, hr, hout, rfl⟩
  · rintro ⟨r, hr, hout, rfl⟩; exact ⟨r.block, ⟨r, hr, hout, rfl⟩, rfl⟩

/-- What is bridged starts like one window and ends like one that starts no earlier, and it reaches
as far as either. -/
theorem exists_bounds_of_mem_bridge {m : Window} (hm : m ∈ bridge outages duplications) :
    ∃ v ∈ allWindows outages duplications, ∃ w ∈ allWindows outages duplications,
      m = ⟨v.startId, w.endId, v.startTime, w.endTime⟩ ∧ v.endId ≤ w.endId ∧
        timeRank v.startTime ≤ timeRank w.startTime := by
  obtain ⟨r, hr, -, rfl⟩ := (mem_bridge ..).mp hm
  have hsub := Run.windows_sublist hr
  have hmem : ∀ b ∈ r.windows, b.window ∈ allWindows outages duplications := fun b hb =>
    (mem_allWindows ..).mpr ⟨b, hsub.subset hb, rfl⟩
  obtain ⟨b, hb, hid, htime⟩ := Run.exists_end_foldl_join r.head r.tail
  have hasc : Ascending Block.rank r.windows := (ascending_sortByRank _).sublist hsub
  refine ⟨r.head.window, hmem _ r.head_mem_windows, b.window, hmem b hb, ?_, ?_, hasc.head_le hb⟩
  · rw [hid, htime, ← r.startId_block, ← r.startTime_block]
    rfl
  · rw [UInt64.le_iff_toNat_le, hid]
    exact Run.hi_le_block r.head_mem_windows

theorem startId_le_endId_of_mem_bridge
    (h : ∀ w ∈ allWindows outages duplications, w.startId ≤ w.endId) {m : Window}
    (hm : m ∈ bridge outages duplications) : m.startId ≤ m.endId := by
  obtain ⟨v, hv, w, -, rfl, hle, -⟩ := exists_bounds_of_mem_bridge _ _ hm
  exact UInt64.le_trans (h v hv) hle

/-- No outage is lost altogether: the run that it falls into is kept. -/
theorem bridge_ne_nil {outages : List Window} (h : outages ≠ []) :
    bridge outages duplications ≠ [] := by
  obtain ⟨w, hw⟩ := List.exists_mem_of_ne_nil outages h
  obtain ⟨r, hr, hwr⟩ := exists_mem_runs (b := ⟨w, true⟩)
    ((mem_windowsByTime outages duplications).mpr (.inl ⟨w, hw, rfl⟩))
  exact List.ne_nil_of_mem
    ((mem_bridge ..).mpr ⟨r, hr, Run.outage_block_of_mem hwr rfl, rfl⟩)

end Bridge

end Switchover
