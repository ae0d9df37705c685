import Mathlib
import Switchover.Proofs.Endpoint.Lookup
import Switchover.Proofs.Endpoint.Tokens

/-!
The natural order of endpoints is a total order in which only equal names tie. It compares four
things one after the other, each of them totally ordered: what kind of address a name spells, the
value of the address, the tokens of a name that spells none, and the spelling. So there is one way
to sort any endpoints, whatever order they come in.
-/
namespace Switchover

/-- A total order on what is made of things orders the things. -/
theorem transCmp_on {α β : Type} (cmp : β → β → Ordering) [Std.TransCmp cmp] (f : α → β) :
    Std.TransCmp fun a b => cmp (f a) (f b) where
  eq_swap := Std.OrientedCmp.eq_swap
  isLE_trans := Std.TransCmp.isLE_trans

/-- The order of texts by their characters. -/
def spelling (x y : List Char) : Ordering :=
  compareOfLessAndEq x y

instance : Std.TransCmp spelling :=
  Std.TransCmp.compareOfLessAndEq_of_irrefl_of_trans_of_antisymm List.lt_irrefl List.lt_trans
    fun h h' => List.le_antisymm (List.not_lt.mp h') (List.not_lt.mp h)

namespace Endpoint

/-! ### What the order compares -/

/-- The kind of address that a name spells: IPv4, IPv6, or none. -/
def kind (e : Endpoint) : Nat :=
  match e.address? with
  | some (.v4 _) => 0
  | some (.v6 _) => 1
  | none => 2

/-- The value of the address that a name spells. -/
def value (e : Endpoint) : Nat :=
  match e.address? with
  | some (.v4 n) => n
  | some (.v6 n) => n
  | none => 0

/-- The tokens of a name that spells no address. -/
def places (e : Endpoint) : List Token :=
  if e.address? = none then tokens e.name.toList else []

theorem order_eq : order = compareLex (compareOn kind) (compareLex (compareOn value)
    (compareLex (fun a b => List.compareLex Token.order a.places b.places)
      fun a b => spelling a.name.toList b.name.toList)) := by
  funext a b
  simp only [order, compareLex, compareOn, kind, value, places, compareNatural_eq, spelling]
  cases a.address? with
  | none =>
    cases b.address? with
    | none => rfl
    | some y => cases y <;> rfl
  | some x =>
    cases b.address? with
    | none => cases x <;> rfl
    | some y => cases x <;> cases y <;> rfl

instance : Std.TransCmp order := by
  have hplaces := transCmp_on (List.compareLex Token.order) places
  have hspelling := transCmp_on spelling fun e : Endpoint => e.name.toList
  rw [order_eq]
  infer_instance

/-! ### Sorting -/

theorem order_swap (a b : Endpoint) : a.order b = (b.order a).swap :=
  Std.OrientedCmp.eq_swap

theorem total_le (a b : Endpoint) : (a.le b || b.le a) = true := by
  rw [le, le, order_swap b a]
  cases a.order b <;> rfl

theorem trans_le (a b c : Endpoint) (hab : a.le b = true) (hbc : b.le c = true) :
    a.le c = true :=
  @Std.TransCmp.isLE_trans _ order _ a b c hab hbc

theorem antisymm_le {a b : Endpoint} (hab : a.le b = true) (hba : b.le a = true) : a = b :=
  order_eq_iff.mp (@Std.OrientedCmp.isLE_antisymm _ order _ a b hab hba)

theorem perm_sort (es : List Endpoint) : (sort es).Perm es :=
  List.mergeSort_perm es le

theorem pairwise_sort (es : List Endpoint) : (sort es).Pairwise fun a b => a.le b = true :=
  List.pairwise_mergeSort trans_le total_le es

/-- Endpoints in ascending order are known by which they are and how often each is there. -/
theorem eq_of_pairwise_le {l m : List Endpoint} (hl : l.Pairwise fun a b => a.le b = true)
    (hm : m.Pairwise fun a b => a.le b = true) (h : l.Perm m) : l = m :=
  List.Perm.eq_of_pairwise (fun _ _ _ _ hab hba => antisymm_le hab hba) hl hm h

/-- The natural order is a total order in which a name ties with itself alone, so that there is one
sorted list of any endpoints. -/
theorem order_total :
    (∀ a b : Endpoint, a.order b = (b.order a).swap) ∧
      (∀ (a b c : Endpoint) (o : Ordering), a.order b = o → b.order c = o → a.order c = o) ∧
      (∀ a b : Endpoint, a.order b = .eq ↔ a.name = b.name) ∧
      (∀ es : List Endpoint, (sort es).Perm es ∧ (sort es).Pairwise (fun a b => a.le b = true) ∧
        ∀ l : List Endpoint, l.Perm es → l.Pairwise (fun a b => a.le b = true) → l = sort es) ∧
      ∀ es es' : List Endpoint, es.Perm es' → sort es = sort es' := by
  refine ⟨order_swap, fun a b c o hab hbc => ?_, fun a b => ?_,
    fun es => ⟨perm_sort es, pairwise_sort es, fun l hperm hl => ?_⟩, fun es es' h => ?_⟩
  · cases o with
    | lt => exact Std.TransCmp.lt_trans hab hbc
    | eq => rw [order_eq_iff.mp hab, hbc]
    | gt => exact Std.TransCmp.gt_trans hab hbc
  · rw [order_eq_iff]
    cases a; cases b; simp
  · exact eq_of_pairwise_le hl (pairwise_sort es) (hperm.trans (perm_sort es).symm)
  · exact eq_of_pairwise_le (pairwise_sort es) (pairwise_sort es')
      ((perm_sort es).trans (h.trans (perm_sort es').symm))

/-- A run of digits ends in the middle of one name, at the end of another, and has a zero in front
in a third. -/
theorem order_total_runs :
    (order ⟨"node9"⟩ ⟨"node010"⟩ = .lt ∧ order ⟨"node010"⟩ ⟨"node10é"⟩ = .lt) ∧
      order ⟨"node9"⟩ ⟨"node10é"⟩ = .lt := by
  have h : order ⟨"node9"⟩ ⟨"node010"⟩ = .lt ∧ order ⟨"node010"⟩ ⟨"node10é"⟩ = .lt := by
    constructor <;> cbv
  exact ⟨h, order_total.2.1 _ _ _ _ h.1 h.2⟩

/-- Two spellings of one address do not tie. -/
example : order ⟨"::1"⟩ ⟨"0::1"⟩ = .gt := by cbv

end Endpoint

end Switchover
