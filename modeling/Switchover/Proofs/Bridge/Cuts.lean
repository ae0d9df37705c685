import Mathlib
import Switchover.Proofs.Bridge.Runs

/-!
Bridging as cutting. The windows in the order of time can be cut in exactly one way into parts in
which every window but the first starts at most one id behind what the windows before it reach,
while the first window of a part starts further behind than that. Bridging gives one window for each
part with an outage: it starts like the first window of the part, and ends like the first one that
reaches as far as any.
-/
namespace Switchover

/-- Whether a list holds the given elements in the order of their ranks, those of one rank as they
were given. -/
structure StablySorted (given l : List Block) : Prop where
  ascending : Ascending Block.rank l
  stable : ∀ t, l.filter (·.rank = t) = given.filter (·.rank = t)

/-- The last id that some windows reach. -/
def reach (l : List Block) : Nat :=
  (l.map Block.hi).foldr max 0

/-- Whether a window starts at most one id behind what some windows reach. No id lies behind the
last one. -/
def Follows (l : List Block) (b : Block) : Prop :=
  b.lo ≤ min (reach l + 1) (2 ^ 64 - 1)

/-- Whether each window of a part follows those before it. -/
def Joined (part : List Block) : Prop :=
  ∀ front b back, part = front ++ b :: back → front ≠ [] → Follows front b

/-- Whether windows are cut where, and only where, one does not follow those before it. -/
structure IsCut (l : List Block) (parts : List (List Block)) : Prop where
  flatten_eq : parts.flatten = l
  ne_nil : ∀ part ∈ parts, part ≠ []
  joined : ∀ part ∈ parts, Joined part
  apart : parts.IsChain fun part next => ∀ b ∈ next.head?, ¬ Follows part b

/-- Whether a window starts like the first one of a part, and ends like the first one of those that
reach furthest. -/
structure Spans (part : List Block) (m : Window) : Prop where
  start : ∃ b ∈ part.head?, m.startId = b.window.startId ∧ m.startTime = b.window.startTime
  stop : ∃ front b back, part = front ++ b :: back ∧
    m.endId = b.window.endId ∧ m.endTime = b.window.endTime ∧
    (∀ x ∈ front, x.hi < b.hi) ∧ ∀ x ∈ back, x.hi ≤ b.hi

/-! ### One order, one cut -/

/-- A stable sort leaves no choice. -/
theorem stablySorted_iff {given l : List Block} :
    StablySorted given l ↔ l = sortByRank Block.rank given := by
  constructor
  · rintro ⟨hasc, hstable⟩
    refine eq_of_filter_rank hasc (ascending_sortByRank given) fun t => ?_
    rw [hstable, filter_rank_sortByRank]
  · rintro rfl
    exact ⟨ascending_sortByRank given, filter_rank_sortByRank given⟩

section Cut
variable {l : List Block} {parts parts' : List (List Block)}

theorem IsCut.tail {part : List Block} (h : IsCut l (part :: parts)) : IsCut parts.flatten parts :=
  ⟨rfl, fun p hp => h.ne_nil p (List.mem_cons_of_mem _ hp),
    fun p hp => h.joined p (List.mem_cons_of_mem _ hp), h.apart.tail⟩

theorem IsCut.eq_nil (h : IsCut [] parts) : parts = [] := by
  cases parts with
  | nil => rfl
  | cons part parts =>
    have hnil := (List.append_eq_nil_iff.mp h.flatten_eq).1
    exact absurd hnil (h.ne_nil part (List.mem_cons_self ..))

/-- A part ends where the next window does not follow, so no other part goes on from there. -/
theorem IsCut.not_joined_append {part more rest : List Block} {b : Block}
    (h : IsCut l (part :: parts)) (hparts : parts.flatten = b :: rest) :
    ¬ Joined (part ++ b :: more) := by
  intro hjoined
  have hfollows := hjoined part b more rfl (h.ne_nil part (List.mem_cons_self ..))
  cases parts with
  | nil => simp at hparts
  | cons next parts =>
    have hne := h.ne_nil next (by simp)
    obtain ⟨c, next, rfl⟩ := List.exists_cons_of_ne_nil hne
    obtain rfl : c = b := by simpa using (List.cons.inj hparts).1
    exact (List.isChain_cons_cons.mp h.apart).1 c rfl hfollows

/-- Where both parts go on as long as windows follow, neither is longer than the other. -/
theorem IsCut.head_eq {part part' : List Block} (h : IsCut l (part :: parts))
    (h' : IsCut l (part' :: parts')) : part = part' := by
  have hflat : part ++ parts.flatten = part' ++ parts'.flatten :=
    h.flatten_eq.trans h'.flatten_eq.symm
  rcases List.append_eq_append_iff.mp hflat with ⟨more, rfl, hrest⟩ | ⟨more, rfl, hrest⟩
  · cases more with
    | nil => simp
    | cons b more =>
      exact absurd (h'.joined _ (List.mem_cons_self ..)) (h.not_joined_append hrest)
  · cases more with
    | nil => simp
    | cons b more =>
      exact absurd (h.joined _ (List.mem_cons_self ..)) (h'.not_joined_append hrest)

theorem IsCut.unique (h : IsCut l parts) (h' : IsCut l parts') : parts = parts' := by
  induction parts generalizing l parts' with
  | nil =>
    obtain rfl : [] = l := h.flatten_eq
    exact h'.eq_nil.symm
  | cons part parts ih =>
    cases parts' with
    | nil =>
      obtain rfl : [] = l := h'.flatten_eq
      exact h.eq_nil
    | cons part' parts' =>
      obtain rfl := h.head_eq h'
      have hrest : parts.flatten = parts'.flatten := by
        have hflat : part ++ parts.flatten = part ++ parts'.flatten :=
          h.flatten_eq.trans h'.flatten_eq.symm
        exact List.append_cancel_left hflat
      rw [ih h.tail (hrest ▸ h'.tail)]

end Cut

/-! ### The parts are the runs -/

namespace Run
variable (r : Run)

theorem hi_block : r.block.hi = reach r.windows := by
  have hfold : ∀ (l : List Block) (a : Block), (l.foldl Block.join a).hi = reach (a :: l) := by
    intro l
    induction l with
    | nil => intro a; simp [reach]
    | cons b l ih =>
      intro a
      rw [List.foldl_cons, ih (a.join b)]
      simp [reach, Block.hi_join, Nat.max_assoc]
  exact hfold r.tail r.head

theorem touches_block_iff {b : Block} : r.block.touches b = true ↔ Follows r.windows b := by
  have hlt : b.lo < 2 ^ 64 := b.window.startId.toNat_lt
  rw [Block.touches_iff, hi_block, Follows]
  omega

theorem joined_windows : Joined r.windows := by
  intro front b back hsplit hne
  obtain ⟨a, front, rfl⟩ := List.exists_cons_of_ne_nil hne
  obtain ⟨rfl, htail⟩ : r.head = a ∧ r.tail = front ++ b :: back := List.cons.inj hsplit
  have habsorbs := r.absorbs
  rw [htail, Block.absorbs_append] at habsorbs
  -- what comes before the window is a run of its own
  exact (touches_block_iff ⟨r.head, front, habsorbs.1⟩).mp habsorbs.2.1

theorem spans_windows : Spans r.windows r.block.window := by
  obtain ⟨front, b, back, hsplit, hid, htime, hfront, hback⟩ :=
    exists_split_foldl_join r.head r.tail
  exact ⟨⟨r.head, rfl, r.startId_block, r.startTime_block⟩,
    ⟨front, b, back, hsplit, hid.symm, htime.symm, hfront, hback⟩⟩

end Run

theorem isCut_runs (l : List Block) : IsCut l ((runs l).map Run.windows) := by
  refine ⟨?_, ?_, ?_, ?_⟩
  · rw [← List.flatMap_def, flatMap_windows_runs]
  · simp [Run.windows]
  · intro part hpart
    obtain ⟨r, -, rfl⟩ := List.mem_map.mp hpart
    exact r.joined_windows
  · refine List.isChain_map _ |>.mpr ((apart_runs l).imp fun r s hrs b hb => ?_)
    obtain rfl : s.head = b := by simpa [Run.windows] using hb
    rw [← Run.touches_block_iff, Block.touches_iff]
    exact Nat.not_le.mpr hrs

/-- The windows have one order and one cut, and bridging gives the spans of the parts with an
outage, one after the other. -/
theorem bridge_spans_cut (outages : List Window) (duplications : List Duplication) :
    let given := outages.map (Block.mk · true) ++ duplications.map fun d => ⟨d.window, false⟩
    ∃ l parts, (∀ l', StablySorted given l' ↔ l' = l) ∧
      (∀ parts', IsCut l parts' ↔ parts' = parts) ∧
      List.Forall₂ Spans (parts.filter (·.any (·.outage))) (bridge outages duplications) := by
  intro given
  have hcut := isCut_runs (windowsByTime outages duplications)
  refine ⟨windowsByTime outages duplications, _, fun l' => stablySorted_iff,
    fun parts' => ⟨fun h => h.unique hcut, fun h => h ▸ hcut⟩, ?_⟩
  have hfilter : ((runs (windowsByTime outages duplications)).map Run.windows).filter
      (·.any (·.outage)) =
      ((runs (windowsByTime outages duplications)).filter (·.block.outage)).map Run.windows := by
    rw [List.filter_map]
    congr 2
    funext r
    exact r.outage_block.symm
  have hbridge : bridge outages duplications =
      ((runs (windowsByTime outages duplications)).filter (·.block.outage)).map
        (·.block.window) := by
    rw [bridge_eq, Run.outageBlocks, List.filter_map, List.map_map]
    rfl
  rw [hfilter, hbridge, List.forall₂_map_left_iff, List.forall₂_map_right_iff, List.forall₂_same]
  exact fun r _ => r.spans_windows

end Switchover
