import Mathlib
import Switchover.Delivery.Bridge

/-!
Sorting by a rank. A stable sort is settled by two facts: its result ascends, and at each rank it
lists what its input lists, in the order of the input. So sorting commutes with leaving elements
out, and sorting an ascending list together with another one is merging it into the sorted other.
-/
namespace Switchover

section Rank
variable {α : Type} (rank : α → Int)

/-- The elements in the order of their ranks, those of one rank in the order given. -/
def sortByRank (l : List α) : List α :=
  l.mergeSort fun a b => decide (rank a ≤ rank b)

/-- Two ascending lists as one. Of one rank, those of the first list come first. -/
def mergeByRank (l l' : List α) : List α :=
  l.merge l' fun a b => decide (rank a ≤ rank b)

/-- Whether the ranks ascend, not necessarily strictly. -/
def Ascending (l : List α) : Prop :=
  l.Pairwise fun a b => rank a ≤ rank b

variable {rank}

theorem le_trans_rank (a b c : α) (hab : decide (rank a ≤ rank b) = true)
    (hbc : decide (rank b ≤ rank c) = true) : decide (rank a ≤ rank c) = true := by
  simp only [decide_eq_true_eq] at *
  omega

theorem le_total_rank (a b : α) :
    (decide (rank a ≤ rank b) || decide (rank b ≤ rank a)) = true := by
  simp only [Bool.or_eq_true, decide_eq_true_eq]
  omega

theorem ascending_sortByRank (l : List α) : Ascending rank (sortByRank rank l) :=
  (List.pairwise_mergeSort le_trans_rank le_total_rank l).imp fun h => by simpa using h

theorem perm_sortByRank (l : List α) : (sortByRank rank l).Perm l :=
  List.mergeSort_perm l _

theorem mem_sortByRank {a : α} {l : List α} : a ∈ sortByRank rank l ↔ a ∈ l :=
  List.mem_mergeSort

theorem sortByRank_of_ascending {l : List α} (h : Ascending rank l) : sortByRank rank l = l :=
  List.mergeSort_of_pairwise (h.imp fun hab => by simpa using hab)

theorem ascending_mergeByRank {l l' : List α} (h : Ascending rank l) (h' : Ascending rank l') :
    Ascending rank (mergeByRank rank l l') :=
  (List.pairwise_merge le_trans_rank le_total_rank l l' (h.imp fun hab => by simpa using hab)
    (h'.imp fun hab => by simpa using hab)).imp fun hab => by simpa using hab

theorem Ascending.head_le {a b : α} {l : List α} (h : Ascending rank (a :: l)) (hb : b ∈ a :: l) :
    rank a ≤ rank b := by
  rcases List.mem_cons.mp hb with rfl | hb
  · exact le_rfl
  · exact List.rel_of_pairwise_cons h hb

/-! ### What is listed at one rank -/

theorem filter_rank_eq_nil {l : List α} {r : Int} (h : ∀ a ∈ l, r < rank a) :
    l.filter (rank · = r) = [] := by
  rw [List.filter_eq_nil_iff]
  intro a ha
  have := h a ha
  simp only [decide_eq_true_eq]
  omega

theorem filter_rank_sortByRank (l : List α) (r : Int) :
    (sortByRank rank l).filter (rank · = r) = l.filter (rank · = r) := by
  have hasc : (l.filter (rank · = r)).Pairwise fun a b => decide (rank a ≤ rank b) = true := by
    refine List.pairwise_of_forall_mem_list fun a ha b hb => ?_
    have har := List.of_mem_filter ha
    have hbr := List.of_mem_filter hb
    simp only [decide_eq_true_eq] at *
    omega
  have hsub : (l.filter (rank · = r)).Sublist (sortByRank rank l) :=
    List.sublist_mergeSort le_trans_rank le_total_rank hasc List.filter_sublist
  have hflt := hsub.filter (rank · = r)
  simp only [List.filter_filter, Bool.and_self] at hflt
  exact (hflt.eq_of_length ((perm_sortByRank l).filter _).length_eq.symm).symm

/-- An ascending list is known by what it lists at each rank. -/
theorem eq_of_filter_rank : ∀ {l l' : List α}, Ascending rank l → Ascending rank l' →
    (∀ r, l.filter (rank · = r) = l'.filter (rank · = r)) → l = l'
  | [], [], _, _, _ => rfl
  | [], b :: l', _, _, hr => by simpa using hr (rank b)
  | a :: l, [], _, _, hr => by simpa using hr (rank a)
  | a :: l, b :: l', h, h', hr => by
    -- the first elements have the least rank of either list
    have hab : rank a = rank b := by
      rcases lt_trichotomy (rank a) (rank b) with hlt | heq | hlt
      · have hnil := filter_rank_eq_nil fun x hx => lt_of_lt_of_le hlt (h'.head_le hx)
        rw [← hr, List.filter_eq_nil_iff] at hnil
        simpa using hnil a (List.mem_cons_self ..)
      · exact heq
      · have hnil := filter_rank_eq_nil fun x hx => lt_of_lt_of_le hlt (h.head_le hx)
        rw [hr, List.filter_eq_nil_iff] at hnil
        simpa using hnil b (List.mem_cons_self ..)
    have hhead := hr (rank a)
    simp only [List.filter_cons, hab, decide_true, if_true, List.cons.injEq] at hhead
    obtain ⟨rfl, -⟩ := hhead
    refine congrArg (a :: ·) (eq_of_filter_rank h.tail h'.tail fun r => ?_)
    have htail := hr r
    simp only [List.filter_cons] at htail
    split_ifs at htail
    · exact (List.cons.inj htail).2
    · exact htail

theorem filter_rank_mergeByRank (r : Int) : ∀ {l l' : List α}, Ascending rank l →
    Ascending rank l' → (mergeByRank rank l l').filter (rank · = r) =
      l.filter (rank · = r) ++ l'.filter (rank · = r)
  | [], l', _, _ => by simp [mergeByRank]
  | a :: l, [], _, _ => by simp [mergeByRank]
  | a :: l, b :: l', h, h' => by
    rw [mergeByRank, List.cons_merge_cons]
    split_ifs with hle
    · have ih := filter_rank_mergeByRank r h.tail h'
      rw [mergeByRank, List.tail_cons] at ih
      simp only [List.filter_cons (x := a), ih]
      split_ifs <;> rfl
    · have ih := filter_rank_mergeByRank r h h'.tail
      rw [mergeByRank, List.tail_cons] at ih
      simp only [List.filter_cons (x := b), ih]
      split_ifs with hb
      · -- what is left of the first list has greater ranks
        simp only [decide_eq_true_eq] at hle hb
        rw [filter_rank_eq_nil fun x hx => lt_of_lt_of_le (by omega) (h.head_le hx)]
        rfl
      · rfl

/-! ### Sorting in parts -/

theorem filter_sortByRank (p : α → Bool) (l : List α) :
    (sortByRank rank l).filter p = sortByRank rank (l.filter p) := by
  refine eq_of_filter_rank ((ascending_sortByRank l).filter p) (ascending_sortByRank _) fun r => ?_
  rw [List.filter_comm, filter_rank_sortByRank, filter_rank_sortByRank, List.filter_comm]

theorem sortByRank_append {l : List α} (h : Ascending rank l) (l' : List α) :
    sortByRank rank (l ++ l') = mergeByRank rank l (sortByRank rank l') := by
  refine eq_of_filter_rank (ascending_sortByRank _)
    (ascending_mergeByRank h (ascending_sortByRank l')) fun r => ?_
  rw [filter_rank_sortByRank, filter_rank_mergeByRank r h (ascending_sortByRank l'),
    filter_rank_sortByRank, List.filter_append]

/-- Whatever holds from left to right in the input still holds within one rank. -/
theorem pairwise_sortByRank {R : α → α → Prop} {l : List α} (h : l.Pairwise R) :
    (sortByRank rank l).Pairwise fun a b => rank a < rank b ∨ rank a = rank b ∧ R a b := by
  rw [List.pairwise_iff_forall_sublist]
  intro a b hab
  have hle : rank a ≤ rank b :=
    List.pairwise_iff_forall_sublist.mp (ascending_sortByRank l) hab
  rcases lt_or_eq_of_le hle with hlt | heq
  · exact Or.inl hlt
  · have hflt := hab.filter (rank · = rank b)
    rw [filter_rank_sortByRank] at hflt
    simp only [List.filter_cons, heq, decide_true, if_true, List.filter_nil] at hflt
    exact Or.inr ⟨heq, List.pairwise_iff_forall_sublist.mp h (hflt.trans List.filter_sublist)⟩

/-! ### Merging from the front -/

theorem mergeByRank_append_of_lt {front l l' : List α}
    (h : ∀ c ∈ front, ∀ a ∈ l.head?, rank c < rank a) :
    mergeByRank rank l (front ++ l') = front ++ mergeByRank rank l l' := by
  induction front with
  | nil => rfl
  | cons c front ih =>
    cases l with
    | nil => simp [mergeByRank]
    | cons a l =>
      have hlt := h c (List.mem_cons_self ..) a rfl
      rw [mergeByRank, List.cons_append, List.cons_merge_cons_neg _ _ _ (by simpa using hlt)]
      rw [mergeByRank] at ih
      rw [ih fun x hx => h x (List.mem_cons_of_mem _ hx)]
      rfl

theorem mergeByRank_cons_of_le {a : α} {l l' : List α} (h : ∀ b ∈ l', rank a ≤ rank b) :
    mergeByRank rank (a :: l) l' = a :: mergeByRank rank l l' := by
  cases l' with
  | nil => simp [mergeByRank]
  | cons b l' =>
    rw [mergeByRank, List.cons_merge_cons_pos _ _ _ (by simpa using h b (List.mem_cons_self ..))]
    rfl

/-- An ascending list falls into what lies before the first of `l` and what does not. -/
theorem exists_split (l : List α) {l' : List α} (h : Ascending rank l') :
    ∃ front back, l' = front ++ back ∧ (∀ b ∈ front, ∀ a ∈ l.head?, rank b < rank a) ∧
      ∀ b ∈ back, ∃ a ∈ l.head?, rank a ≤ rank b := by
  cases l with
  | nil => exact ⟨l', [], by simp, by simp, by simp⟩
  | cons a l =>
    refine ⟨l'.takeWhile (rank · < rank a), l'.dropWhile (rank · < rank a),
      List.takeWhile_append_dropWhile.symm, fun b hb x hx => ?_, fun b hb => ⟨a, rfl, ?_⟩⟩
    · obtain rfl : a = x := by simpa using hx
      simpa using List.mem_takeWhile_imp hb
    · cases hd : l'.dropWhile (rank · < rank a) with
      | nil => simp [hd] at hb
      | cons d back =>
        have hhead : ¬ rank d < rank a := by
          have := List.head_dropWhile_not (rank · < rank a) (l := l') (by simp [hd])
          simpa [hd] using this
        have hasc : Ascending rank (d :: back) := hd ▸ h.sublist (List.dropWhile_sublist _)
        have := hasc.head_le (hd ▸ hb)
        omega

end Rank

end Switchover
