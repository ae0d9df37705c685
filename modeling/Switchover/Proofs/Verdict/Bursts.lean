import Mathlib
import Switchover.Proofs.Capture.Copies
import Switchover.Verdict.Summary

/-!
Bursts of duplications. Duplications can be cut in exactly one way into bursts, in which each id is
the one behind that of the entry before, while no burst goes on where the one before it ended. The
count of bursts compares the place of an entry less its id with that of the entry before, which is
the same just if the id is the next one. In a delivery the duplications ascend by id, so the bursts
are the runs of duplicated ids that no other duplicated id adjoins, one for each id that starts one.
-/
namespace Switchover

/-- Whether the id of `y` is the one behind that of `x`. Behind the last id there is none. -/
def Duplication.Adjoins (x y : Duplication) : Prop :=
  y.window.startId.toNat = x.window.startId.toNat + 1

instance (x y : Duplication) : Decidable (x.Adjoins y) :=
  inferInstanceAs (Decidable (_ = _))

/-- Whether duplications are cut where, and only where, an id is not the one behind that before. -/
structure IsBursts (ds : List Duplication) (bursts : List (List Duplication)) : Prop where
  flatten_eq : bursts.flatten = ds
  ne_nil : ∀ burst ∈ bursts, burst ≠ []
  climbing : ∀ burst ∈ bursts, burst.IsChain Duplication.Adjoins
  apart : bursts.IsChain fun burst next =>
    ∀ x ∈ burst.getLast?, ∀ y ∈ next.head?, ¬ x.Adjoins y

/-! ### Counting the cuts -/

/-- Moving all entries by some places changes nothing. -/
theorem burstsFrom_add (n index : Nat) (k : Int) (ds : List Duplication) :
    burstsFrom (index + n) (some (k + n)) ds = burstsFrom index (some k) ds := by
  induction ds generalizing index k with
  | nil => rfl
  | cons d ds ih =>
    have hkey : ((index + n : Nat) : Int) - (d.window.startId.toNat : Int) =
        ((index : Int) - (d.window.startId.toNat : Int)) + n := by
      omega
    have hsame : some (k + (n : Int)) = some ((index : Int) - (d.window.startId.toNat : Int) + n) ↔
        some k = some ((index : Int) - (d.window.startId.toNat : Int)) := by
      rw [Option.some.injEq, Option.some.injEq, add_left_inj]
    rw [burstsFrom, burstsFrom]
    simp only [hkey, hsame, Nat.add_right_comm index n 1, ih]

/-- An entry adds a burst to those behind it unless the next one goes on from it. -/
theorem countBursts_cons_cons (x y : Duplication) (ds : List Duplication) :
    countBursts (x :: y :: ds) = (if x.Adjoins y then 0 else 1) + countBursts (y :: ds) := by
  have hadjoins : some (((0 : Nat) : Int) - (x.window.startId.toNat : Int)) =
      some (((1 : Nat) : Int) - (y.window.startId.toNat : Int)) ↔ x.Adjoins y := by
    rw [Duplication.Adjoins, Option.some.injEq]
    omega
  have hkey : ((1 : Nat) : Int) - (y.window.startId.toNat : Int) =
      ((0 : Nat) : Int) - (y.window.startId.toNat : Int) + (1 : Nat) := by
    omega
  have hshift := burstsFrom_add 1 1 (((0 : Nat) : Int) - (y.window.startId.toNat : Int)) ds
  rw [← hkey] at hshift
  simp only [countBursts, burstsFrom, Nat.zero_add, hadjoins, hshift, reduceCtorEq, if_false]
  omega

theorem countBursts_singleton (x : Duplication) : countBursts [x] = 1 := rfl

/-- A burst counts for one if what is behind it does not go on from it. -/
theorem countBursts_append {burst ds : List Duplication} (hne : burst ≠ [])
    (hclimbing : burst.IsChain Duplication.Adjoins)
    (hapart : ∀ x ∈ burst.getLast?, ∀ y ∈ ds.head?, ¬ x.Adjoins y) :
    countBursts (burst ++ ds) = countBursts ds + 1 := by
  induction burst with
  | nil => exact absurd rfl hne
  | cons x burst ih =>
    cases burst with
    | nil =>
      cases ds with
      | nil => exact countBursts_singleton x
      | cons y ds =>
        have hxy : ¬ x.Adjoins y := hapart x rfl y rfl
        rw [List.singleton_append, countBursts_cons_cons, if_neg hxy, Nat.add_comm]
    | cons y burst =>
      obtain ⟨hxy, hrest⟩ := List.isChain_cons_cons.mp hclimbing
      rw [List.cons_append, List.cons_append, countBursts_cons_cons, if_pos hxy, Nat.zero_add]
      exact ih (List.cons_ne_nil y burst) hrest fun z hz => hapart z (by simpa using hz)

namespace IsBursts
variable {ds : List Duplication} {bursts bursts' : List (List Duplication)}

/-- The count is the number of bursts. -/
theorem countBursts_eq (h : IsBursts ds bursts) : countBursts ds = bursts.length := by
  obtain ⟨rfl, hne, hclimbing, hapart⟩ := h
  induction bursts with
  | nil => rfl
  | cons burst bursts ih =>
    obtain ⟨hburst, hne⟩ := List.forall_mem_cons.mp hne
    obtain ⟨hchain, hclimbing⟩ := List.forall_mem_cons.mp hclimbing
    rw [List.flatten_cons, countBursts_append hburst hchain, ih hne hclimbing hapart.tail,
      List.length_cons]
    intro x hx y hy
    cases bursts with
    | nil => cases hy
    | cons next bursts =>
      refine (List.isChain_cons_cons.mp hapart).1 x hx y ?_
      have hnext : next ≠ [] := hne next (List.mem_cons_self ..)
      rwa [List.flatten_cons, List.head?_append_of_ne_nil _ hnext] at hy

/-- There is one way to cut. -/
theorem iff_splitBy :
    IsBursts ds bursts ↔ ds.splitBy (fun x y => decide (x.Adjoins y)) = bursts := by
  rw [List.splitBy_eq_iff]
  constructor
  · rintro ⟨hflat, hne, hclimbing, hapart⟩
    refine ⟨hflat.symm, fun hnil => hne [] hnil rfl, fun burst hburst => ?_, ?_⟩
    · exact (hclimbing burst hburst).imp fun x y hxy => decide_eq_true hxy
    · refine hapart.imp_of_mem_imp fun burst next hburst hnext h => ?_
      refine ⟨hne burst hburst, hne next hnext, decide_eq_false ?_⟩
      exact h _ (List.getLast_mem_getLast? _) _ (List.head_mem_head? _)
  · rintro ⟨hflat, hne, hclimbing, hapart⟩
    refine ⟨hflat.symm, fun burst hburst heq => hne (heq ▸ hburst), fun burst hburst => ?_, ?_⟩
    · exact (hclimbing burst hburst).imp fun x y hxy => of_decide_eq_true hxy
    · refine hapart.imp fun burst next ⟨hburst, hnext, h⟩ x hx y hy => ?_
      rw [List.getLast_of_mem_getLast? hx, List.head_of_mem_head? hy] at h
      exact of_decide_eq_false h

end IsBursts

/-! ### Runs of ids -/

/-- The ids that some duplications list. -/
def idsOf (ds : List Duplication) : Set UInt64 :=
  {i | ∃ x ∈ ds, x.window.startId = i}

/-- Whether an id of some ids is not behind another one of them. -/
def StartsRun (ids : Set UInt64) (i : UInt64) : Prop :=
  i ∈ ids ∧ ∀ j ∈ ids, j.toNat + 1 ≠ i.toNat

/-- Whether all ids from `a` to `b` are among some ids and neither the one before nor the one
behind is. -/
structure IsRun (ids : Set UInt64) (a b : UInt64) : Prop where
  le : a ≤ b
  mem : ∀ i, a ≤ i → i ≤ b → i ∈ ids
  before : ∀ j ∈ ids, j.toNat + 1 ≠ a.toNat
  behind : ∀ j ∈ ids, j.toNat ≠ b.toNat + 1

section Runs
variable {ids : Set UInt64} {a b c : UInt64}

theorem IsRun.startsRun (h : IsRun ids a b) : StartsRun ids a :=
  ⟨h.mem a (UInt64.le_refl a) h.le, h.before⟩

/-- Of two runs with one start neither ends before the other. -/
theorem IsRun.le_of_start (h : IsRun ids a b) (h' : IsRun ids a c) : b ≤ c := by
  by_contra hlt
  have hcb : c.toNat < b.toNat := UInt64.lt_iff_toNat_lt.mp (UInt64.not_le.mp hlt)
  have hb := b.toNat_lt
  have hnext : (UInt64.ofNat (c.toNat + 1)).toNat = c.toNat + 1 :=
    UInt64.toNat_ofNat_of_lt' (by rw [UInt64.size]; omega)
  have hac := UInt64.le_iff_toNat_le.mp h'.le
  refine h'.behind (UInt64.ofNat (c.toNat + 1)) (h.mem _ ?_ ?_) hnext <;>
    rw [UInt64.le_iff_toNat_le, hnext] <;> omega

/-- Where a run starts there is one: it goes on up to the first id with none of the ids behind. -/
theorem exists_isRun (h : StartsRun ids a) : ∃ b, IsRun ids a b := by
  obtain ⟨ha, hbefore⟩ := h
  have hlast : a.toNat ≤ 2 ^ 64 - 1 ∧ ∀ j ∈ ids, j.toNat ≠ 2 ^ 64 - 1 + 1 :=
    ⟨Nat.le_pred_of_lt a.toNat_lt, fun j _ => Nat.ne_of_lt j.toNat_lt⟩
  have hends : ∃ n, a.toNat ≤ n ∧ ∀ j ∈ ids, j.toNat ≠ n + 1 := ⟨_, hlast⟩
  classical
  obtain ⟨hle, hbehind⟩ := Nat.find_spec hends
  have hlt : Nat.find hends < UInt64.size :=
    (Nat.find_min' hends hlast).trans_lt (by decide)
  have hb : (UInt64.ofNat (Nat.find hends)).toNat = Nat.find hends := UInt64.toNat_ofNat_of_lt' hlt
  refine ⟨UInt64.ofNat (Nat.find hends), ?_, fun i hai hib => ?_, hbefore, ?_⟩
  · rwa [UInt64.le_iff_toNat_le, hb]
  · rw [UInt64.le_iff_toNat_le] at hai
    rw [UInt64.le_iff_toNat_le, hb] at hib
    rcases hai.eq_or_lt with heq | hlt
    · exact UInt64.toNat_inj.mp heq ▸ ha
    · -- the run does not end at the id before, so the next one is among them
      have hmin := Nat.find_min hends (m := i.toNat - 1) (by omega)
      push Not at hmin
      obtain ⟨j, hj, hji⟩ := hmin (by omega)
      have hij : j = i := UInt64.toNat_inj.mp (by omega)
      exact hij ▸ hj
  · rwa [hb]

/-- There are as many runs as ids that start one. -/
theorem encard_runs (ids : Set UInt64) :
    {r : UInt64 × UInt64 | IsRun ids r.1 r.2}.encard = {i | StartsRun ids i}.encard := by
  have himage : Prod.fst '' {r : UInt64 × UInt64 | IsRun ids r.1 r.2} = {i | StartsRun ids i} := by
    ext a
    constructor
    · rintro ⟨r, hr, rfl⟩
      exact IsRun.startsRun hr
    · intro ha
      obtain ⟨b, hb⟩ := exists_isRun ha
      exact ⟨(a, b), hb, rfl⟩
  have hinj : Set.InjOn Prod.fst {r : UInt64 × UInt64 | IsRun ids r.1 r.2} := by
    rintro ⟨a, b⟩ hb ⟨a', c⟩ hc heq
    obtain rfl : a = a' := heq
    have hbc : b = c := UInt64.le_antisymm (hb.le_of_start hc) (hc.le_of_start hb)
    rw [hbc]
  rw [← himage, hinj.encard_image]

end Runs

/-! ### Bursts in the order of the ids -/

section Ascending
variable {ds : List Duplication}

/-- Whether no entry of a list has the id before that of `y`. -/
def Duplication.Foremost (ds : List Duplication) (y : Duplication) : Prop :=
  ∀ x ∈ ds, ¬ x.Adjoins y

instance (ds : List Duplication) : DecidablePred (Duplication.Foremost ds) := fun y =>
  inferInstanceAs (Decidable (∀ x ∈ ds, ¬ x.Adjoins y))

/-- In the order of the ids, no entry has the id before that of the first one. -/
theorem foremost_head {x : Duplication}
    (h : (x :: ds).Pairwise (·.window.startId < ·.window.startId)) :
    Duplication.Foremost (x :: ds) x := by
  intro z hz
  rw [Duplication.Adjoins]
  rcases List.mem_cons.mp hz with rfl | hz
  · omega
  · have := UInt64.lt_iff_toNat_lt.mp (List.rel_of_pairwise_cons h hz)
    omega

/-- In the order of the ids, an entry starts a burst just if no entry has the id before its own. -/
theorem countBursts_of_ascending (h : ds.Pairwise (·.window.startId < ·.window.startId)) :
    countBursts ds = ds.countP (Duplication.Foremost ds ·) := by
  induction ds with
  | nil => rfl
  | cons x ds ih =>
    obtain ⟨hx, hds⟩ := List.pairwise_cons.mp h
    cases ds with
    | nil => simp [countBursts_singleton, foremost_head h]
    | cons y ds =>
      have hxy := UInt64.lt_iff_toNat_lt.mp (hx y (List.mem_cons_self ..))
      have hsecond : Duplication.Foremost (x :: y :: ds) y ↔ ¬ x.Adjoins y :=
        List.forall_mem_cons.trans (and_iff_left (foremost_head hds))
      -- the first entry is two ids at least before those behind the second one
      have hrest : ∀ z ∈ ds,
          Duplication.Foremost (x :: y :: ds) z ↔ Duplication.Foremost (y :: ds) z := by
        intro z hz
        have hyz := UInt64.lt_iff_toNat_lt.mp (List.rel_of_pairwise_cons hds hz)
        refine List.forall_mem_cons.trans (and_iff_right ?_)
        rw [Duplication.Adjoins]
        omega
      have hcount : ds.countP (Duplication.Foremost (x :: y :: ds) ·) =
          ds.countP (Duplication.Foremost (y :: ds) ·) :=
        List.countP_congr fun z hz => by simpa using hrest z hz
      rw [countBursts_cons_cons, ih hds, List.countP_cons, List.countP_cons, List.countP_cons,
        hcount]
      by_cases hadjoins : x.Adjoins y
      · simp [foremost_head h, foremost_head hds, hsecond, hadjoins]
      · simp [foremost_head h, foremost_head hds, hsecond, hadjoins, Nat.add_comm]

theorem encard_startsRun (h : ds.Pairwise (·.window.startId < ·.window.startId)) :
    {i | StartsRun (idsOf ds) i}.encard = countBursts ds := by
  have hset : {i | StartsRun (idsOf ds) i} =
      ((ds.filter (Duplication.Foremost ds ·)).map (·.window.startId)).toFinset := by
    ext i
    rw [List.coe_toFinset]
    change StartsRun (idsOf ds) i ↔ i ∈ List.map _ _
    rw [List.mem_map]
    constructor
    · rintro ⟨⟨y, hy, rfl⟩, hbefore⟩
      refine ⟨y, List.mem_filter.mpr ⟨hy, decide_eq_true fun x hx hxy => ?_⟩, rfl⟩
      exact hbefore _ ⟨x, hx, rfl⟩ hxy.symm
    · rintro ⟨y, hy, rfl⟩
      obtain ⟨hy, hforemost⟩ := List.mem_filter.mp hy
      refine ⟨⟨y, hy, rfl⟩, ?_⟩
      rintro _ ⟨x, hx, rfl⟩ heq
      exact of_decide_eq_true hforemost x hx heq.symm
  have hnodup : ((ds.filter (Duplication.Foremost ds ·)).map (·.window.startId)).Nodup :=
    nodup_of_pairwise_lt (List.pairwise_map.mpr (h.filter _))
  rw [hset, Set.encard_coe_eq_coe_finsetCard, List.toFinset_card_of_nodup hnodup, List.length_map,
    ← List.countP_eq_length_filter, countBursts_of_ascending h]

end Ascending

/-- The ids that a delivery lists as duplicated are those captured more than once, as far as the
captures of one id can be counted. -/
theorem mem_idsOf_duplications {sent : UInt64} {capture : List Observation} {i : UInt64} :
    i ∈ idsOf (Delivery.ofCapture sent capture).duplications ↔
      i < sent ∧ 1 < UInt32.ofNat (copiesIn capture i) := by
  constructor
  · rintro ⟨x, hx, rfl⟩
    obtain ⟨a, ha, hdup⟩ := List.mem_filterMap.mp hx
    obtain ⟨hlt, hg⟩ := Arrival.mem_ofCapture.mp ha
    obtain ⟨hmany, rfl⟩ := Arrival.duplication?_eq_some_iff.mp hdup
    rw [Arrival.copies_gather hg, ← List.countP_eq_length_filter] at hmany
    exact ⟨hlt, hmany⟩
  · rintro ⟨hlt, hmany⟩
    have hcaptured : ∃ o ∈ capture, o.id = i := by
      rw [← copiesIn_pos, Nat.pos_iff_ne_zero]
      intro hzero
      rw [hzero] at hmany
      exact absurd hmany (by decide)
    obtain ⟨a, ha, rfl⟩ := Arrival.exists_mem_ofCapture.mpr ⟨hlt, hcaptured⟩
    have hcopies := Arrival.copies_gather (Arrival.mem_ofCapture.mp ha).2
    rw [← List.countP_eq_length_filter] at hcopies
    have hdup := Arrival.duplication?_eq_some_iff.mpr ⟨hcopies ▸ hmany, rfl⟩
    exact ⟨_, List.mem_filterMap.mpr ⟨a, ha, hdup⟩, rfl⟩

/-- The count of bursts is the number of parts in the one way to cut. Of the duplications of a
delivery it is the number of runs of duplicated ids, and of the ids that start one. -/
theorem countBursts_eq_runs :
    (∀ ds : List Duplication, ∃ bursts, (∀ bursts', IsBursts ds bursts' ↔ bursts' = bursts) ∧
      countBursts ds = bursts.length) ∧
    countBursts [] = 0 ∧
    ∀ (sent : UInt64) (capture : List Observation),
      let ds := (Delivery.ofCapture sent capture).duplications
      (∀ i, i ∈ idsOf ds ↔ i < sent ∧ 1 < UInt32.ofNat (copiesIn capture i)) ∧
      {r : UInt64 × UInt64 | IsRun (idsOf ds) r.1 r.2}.encard = countBursts ds ∧
      {i | StartsRun (idsOf ds) i}.encard = countBursts ds := by
  refine ⟨fun ds => ?_, rfl, ?_⟩
  · refine ⟨_, fun bursts' => IsBursts.iff_splitBy.trans eq_comm, ?_⟩
    exact (IsBursts.iff_splitBy.mpr rfl).countBursts_eq
  · intro sent capture ds
    have hstarts : {i | StartsRun (idsOf ds) i}.encard = countBursts ds :=
      encard_startsRun Delivery.pairwise_duplications
    exact ⟨fun i => mem_idsOf_duplications, (encard_runs _).trans hstarts, hstarts⟩

/-- No id is behind the last one. -/
example : countBursts [⟨⟨18446744073709551615, 0, 0, 0⟩, 1⟩, ⟨⟨0, 0, 0, 0⟩, 1⟩] = 2 := by decide

end Switchover
