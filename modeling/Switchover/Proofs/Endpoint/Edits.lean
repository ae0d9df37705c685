import Mathlib
import Switchover.Delivery.Json
import Switchover.Proofs.Endpoint.Cut
import Switchover.Verdict.Report

/-!
Maps by name. Whatever was inserted and removed, and in whatever order, a map lists its endpoints in
their natural order, each name once, and holds under each name the value that was last inserted
under this very name, unless it was removed since. So there is one map for what is left under the
names, and all that is read off it, a saved text or a verdict, does not depend on the way there.
-/
namespace Switchover

/-- An operation on a map. -/
inductive Edit (α : Type) where
  | insert (e : Endpoint) (v : α)
  | remove (e : Endpoint)

section Edits
variable {α : Type}

namespace Edit

/-- The endpoint that an operation is about. -/
def endpoint : Edit α → Endpoint
  | insert e _ => e
  | remove e => e

/-- The value that an operation leaves under its endpoint. -/
def value? : Edit α → Option α
  | insert _ v => some v
  | remove _ => none

/-- The map after an operation. -/
def apply (m : EndpointMap α) : Edit α → EndpointMap α
  | insert e v => m.insert e v
  | remove e => m.erase e

end Edit

/-- Whether some operations leave `v` under a name: it was inserted there, and no later operation is
about this name. -/
def Leaves (edits : List (Edit α)) (name : String) (v : α) : Prop :=
  ∃ front back, edits = front ++ .insert ⟨name⟩ v :: back ∧ ∀ x ∈ back, x.endpoint.name ≠ name

namespace EndpointMap

/-- The map that some operations make of the empty one. -/
def edited (edits : List (Edit α)) : EndpointMap α :=
  edits.foldl Edit.apply empty

/-- Whether a map is the one that some operations leave, listed by its endpoints and told by its
names. An insertion hands out the value it replaces, and no operation touches another name. -/
structure KeptBy (m : EndpointMap α) (edits : List (Edit α)) : Prop where
  ascending : m.keys.Pairwise fun a b => a.order b = .lt
  nodup : (m.keys.map (·.name)).Nodup
  get?_iff : ∀ name v, m.get? ⟨name⟩ = some v ↔ Leaves edits name v
  exchange_eq : ∀ e v, m.exchange e v = (m.get? e, edited (edits ++ [.insert e v]))
  others_eq : ∀ x : Edit α,
    (edited (edits ++ [x])).entries.filter (·.1.name ≠ x.endpoint.name) =
      m.entries.filter (·.1.name ≠ x.endpoint.name)

/-! ### One operation -/

variable {m n : EndpointMap α} {e k : Endpoint}

theorem find_filter_order_ne (l : List (Endpoint × α)) :
    find k (l.filter fun x => e.order x.1 ≠ .eq) = if k = e then none else find k l := by
  induction l with
  | nil => simp [find]
  | cons x l ih =>
    obtain ⟨j, w⟩ := x
    by_cases hj : e = j
    · rw [List.filter_cons_of_neg (by simpa using Endpoint.order_eq_iff.mpr hj), ih, find_cons, hj]
      split_ifs <;> rfl
    · rw [List.filter_cons_of_pos (by simpa using mt Endpoint.order_eq_iff.mp hj), find_cons,
        find_cons, ih]
      split_ifs with hkj hke
      · exact absurd (hke.symm.trans hkj) hj
      all_goals rfl

/-- Erasing a value changes what is looked up under its name, and nothing else. -/
theorem get?_erase (m : EndpointMap α) (e k : Endpoint) :
    (m.erase e).get? k = if k = e then none else m.get? k :=
  find_filter_order_ne m.entries

theorem get?_apply (m : EndpointMap α) (x : Edit α) (k : Endpoint) :
    (x.apply m).get? k = if k = x.endpoint then x.value? else m.get? k := by
  cases x with
  | insert e v => exact get?_insert m e k v
  | remove e => exact get?_erase m e k

theorem ordered_apply (h : m.Ordered) (x : Edit α) : (x.apply m).Ordered := by
  cases x with
  | insert e v => exact ordered_insert h v
  | remove e => exact ordered_erase h

/-- An insertion meets the value if there is one. -/
theorem exchangeEntry_eq {l : List (Endpoint × α)}
    (h : l.Pairwise fun x y => x.1.order y.1 = .lt) (e : Endpoint) (v : α) :
    exchangeEntry e v l = (find e l, insertEntry e v l) := by
  induction l with
  | nil => rfl
  | cons x l ih =>
    obtain ⟨k, w⟩ := x
    obtain ⟨hk, hl⟩ := List.pairwise_cons.mp h
    cases horder : e.order k with
    | lt =>
      -- the value would stand further back, where all endpoints are greater
      have hnone := find_eq_none (forall_order_lt w horder hk)
      simp only [hnone, exchangeEntry, insertEntry, horder]
    | eq => simp only [exchangeEntry, insertEntry, find, horder, if_true]
    | gt => simp only [exchangeEntry, insertEntry, find, horder, ih hl, reduceCtorEq, if_false]

theorem exchange_eq (h : m.Ordered) (e : Endpoint) (v : α) :
    m.exchange e v = (m.get? e, m.insert e v) := by
  rw [exchange, exchangeEntry_eq h]
  rfl

/-- The entries of other names stay, and stay in their order. -/
theorem filter_apply (h : m.Ordered) (x : Edit α) :
    (x.apply m).entries.filter (·.1.name ≠ x.endpoint.name) =
      m.entries.filter (·.1.name ≠ x.endpoint.name) := by
  obtain ⟨front, back, -, -, hentries, hinsert, herase⟩ := exists_cut h x.endpoint
  have hown : (m.own x.endpoint).filter (·.1.name ≠ x.endpoint.name) = [] := by
    rw [own]
    cases m.get? x.endpoint <;> simp
  rw [hentries, List.filter_append, List.filter_append, hown, List.append_nil]
  cases x with
  | insert e v =>
    have hput : (m.insert e v).entries = front ++ (e, v) :: back := hinsert v
    rw [Edit.apply, hput, List.filter_append, List.filter_cons_of_neg (by simp [Edit.endpoint])]
  | remove e =>
    have hrest : (m.erase e).entries = front ++ back := herase
    rw [Edit.apply, hrest, List.filter_append]

/-! ### One map for what is left -/

theorem mem_entries_iff (h : m.Ordered) {v : α} : (e, v) ∈ m.entries ↔ m.get? e = some v := by
  refine ⟨fun hmem => ?_, mem_of_get?⟩
  obtain ⟨front, back, hfront, hback, hentries, -, -⟩ := exists_cut h e
  rw [hentries, List.append_assoc, List.mem_append, List.mem_append] at hmem
  rcases hmem with hmem | hmem | hmem
  · exact absurd rfl (Endpoint.ne_of_order_lt (hfront (e, v) hmem))
  · rw [own, Option.mem_toList, Option.map_eq_some_iff] at hmem
    obtain ⟨w, hw, heq⟩ := hmem
    rw [hw, (Prod.mk.inj heq).2]
  · exact absurd rfl (Endpoint.ne_of_order_lt (hback (e, v) hmem))

/-- No name is listed twice. -/
theorem nodup_names (h : m.Ordered) : (m.keys.map (·.name)).Nodup := by
  rw [keys, List.map_map]
  refine List.pairwise_map.mpr (h.imp fun hlt hname => ?_)
  exact Endpoint.ne_of_order_lt hlt (congrArg Endpoint.mk hname)

theorem nodup_entries (h : m.Ordered) : m.entries.Nodup := by
  have hnames := nodup_names h
  rw [keys, List.map_map] at hnames
  exact hnames.of_map _

/-- A map in natural order is known by its values. -/
theorem eq_of_get? (hm : m.Ordered) (hn : n.Ordered) (h : ∀ e, m.get? e = n.get? e) : m = n := by
  have hperm : m.entries.Perm n.entries := by
    refine (List.perm_ext_iff_of_nodup (nodup_entries hm) (nodup_entries hn)).mpr fun ⟨e, v⟩ => ?_
    rw [mem_entries_iff hm, mem_entries_iff hn, h]
  have hentries : m.entries = n.entries := by
    refine List.Perm.eq_of_pairwise (fun x y _ _ hxy hyx => ?_) hm hn hperm
    rw [Endpoint.order_swap, hxy] at hyx
    cases hyx
  cases m; cases n
  exact congrArg mk hentries

/-! ### Many operations -/

theorem edited_concat (edits : List (Edit α)) (x : Edit α) :
    edited (edits ++ [x]) = x.apply (edited edits) := by
  rw [edited, List.foldl_append]
  rfl

theorem ordered_edited (edits : List (Edit α)) : (edited edits).Ordered := by
  induction edits using List.reverseRecOn with
  | nil => exact ordered_empty
  | append_singleton edits x ih =>
    rw [edited_concat]
    exact ordered_apply ih x

end EndpointMap

/-- The last operation on a name decides what is left under it. -/
theorem leaves_concat {edits : List (Edit α)} {x : Edit α} {name : String} {v : α} :
    Leaves (edits ++ [x]) name v ↔
      if x.endpoint.name = name then x.value? = some v else Leaves edits name v := by
  constructor
  · rintro ⟨front, back, heq, hback⟩
    cases back using List.reverseRecOn with
    | nil =>
      obtain ⟨-, hx⟩ := List.append_inj' heq rfl
      obtain rfl := (List.cons.inj hx).1
      simp [Edit.endpoint, Edit.value?]
    | append_singleton back y =>
      rw [← List.cons_append, ← List.append_assoc] at heq
      obtain ⟨rfl, hx⟩ := List.append_inj' heq rfl
      obtain rfl := (List.cons.inj hx).1
      rw [if_neg (hback x (by simp))]
      exact ⟨front, back, rfl, fun y hy => hback y (List.mem_append_left _ hy)⟩
  · intro h
    split_ifs at h with hname
    · cases x with
      | insert e w =>
        obtain rfl := Option.some.inj h
        subst hname
        exact ⟨edits, [], rfl, nofun⟩
      | remove e => cases h
    · obtain ⟨front, back, rfl, hback⟩ := h
      refine ⟨front, back ++ [x], by simp, fun y hy => ?_⟩
      rcases List.mem_append.mp hy with hy | hy
      · exact hback y hy
      · exact List.mem_singleton.mp hy ▸ hname

/-- What is left under a name, read off the operations from the last one to the first. -/
theorem leaves_iff_find? {edits : List (Edit α)} {name : String} {v : α} :
    Leaves edits name v ↔
      (edits.reverse.find? (·.endpoint.name = name)).bind Edit.value? = some v := by
  induction edits using List.reverseRecOn with
  | nil => simp [Leaves]
  | append_singleton edits x ih =>
    rw [leaves_concat, ih, List.reverse_append, List.reverse_singleton, List.singleton_append,
      List.find?_cons]
    split_ifs with hname <;> simp [hname]

namespace EndpointMap

theorem get?_edited_iff (edits : List (Edit α)) (name : String) (v : α) :
    (edited edits).get? ⟨name⟩ = some v ↔ Leaves edits name v := by
  induction edits using List.reverseRecOn with
  | nil =>
    refine iff_of_false nofun ?_
    rintro ⟨front, back, heq, -⟩
    simp at heq
  | append_singleton edits x ih =>
    have hname : (⟨name⟩ : Endpoint) = x.endpoint ↔ x.endpoint.name = name := by
      rw [eq_comm]
      cases x.endpoint
      simp
    rw [edited_concat, get?_apply, leaves_concat, ← ih]
    simp only [hname]
    split_ifs <;> rfl

theorem keptBy_edited (edits : List (Edit α)) : (edited edits).KeptBy edits where
  ascending := List.pairwise_map.mpr (ordered_edited edits)
  nodup := nodup_names (ordered_edited edits)
  get?_iff := get?_edited_iff edits
  exchange_eq e v := by
    rw [exchange_eq (ordered_edited edits), edited_concat]
    rfl
  others_eq x := by
    rw [edited_concat]
    exact filter_apply (ordered_edited edits) x

/-- Operations that leave the same values under the same names leave one map. -/
theorem edited_congr {edits edits' : List (Edit α)}
    (h : ∀ name v, Leaves edits name v ↔ Leaves edits' name v) : edited edits = edited edits' := by
  refine eq_of_get? (ordered_edited edits) (ordered_edited edits') fun e => Option.ext fun v => ?_
  rw [get?_edited_iff, get?_edited_iff, h]

end EndpointMap

end Edits

/-- Deliveries are kept by the names of their endpoints, whatever was inserted and removed. What is
left under the names decides in which order they are listed, what is saved and what the verdict
is. -/
theorem Deliveries.edited_by_name :
    (∀ edits : List (Edit Delivery), (EndpointMap.edited edits).KeptBy edits) ∧
    ∀ edits edits' : List (Edit Delivery),
      (∀ name d, Leaves edits name d ↔ Leaves edits' name d) →
      let ds : Deliveries := EndpointMap.edited edits
      let ds' : Deliveries := EndpointMap.edited edits'
      ds.entries = ds'.entries ∧ ds.toJson.compact = ds'.toJson.compact ∧
        ds.toJson.indented = ds'.toJson.indented ∧ ∀ t, evaluate t ds = evaluate t ds' := by
  refine ⟨EndpointMap.keptBy_edited, fun edits edits' h => ?_⟩
  dsimp only
  rw [EndpointMap.edited_congr h]
  exact ⟨rfl, rfl, rfl, fun t => rfl⟩

/-- Two names differ in a zero, two others spell one address, and one value is removed and inserted
again. -/
theorem Deliveries.edited_by_name_zeros :
    let lost : Delivery := ⟨5, 4, [], [], 0, 1⟩
    let whole : Delivery := ⟨5, 5, [], [], 0, 0⟩
    let edits : List (Edit Delivery) := [.insert ⟨"tor01"⟩ whole, .insert ⟨"::1"⟩ lost,
      .insert ⟨"tor1"⟩ lost, .remove ⟨"tor01"⟩, .insert ⟨"0::1"⟩ whole, .insert ⟨"tor01"⟩ lost]
    let edits' : List (Edit Delivery) := [.insert ⟨"0::1"⟩ whole, .insert ⟨"tor01"⟩ lost,
      .insert ⟨"tor1"⟩ lost, .insert ⟨"::1"⟩ lost]
    (∀ name d, Leaves edits name d ↔ Leaves edits' name d) ∧
      (EndpointMap.edited edits).entries = (EndpointMap.edited edits').entries := by
  intro lost whole edits edits'
  have h : ∀ name d, Leaves edits name d ↔ Leaves edits' name d := by
    intro name d
    rw [leaves_iff_find?, leaves_iff_find?]
    by_cases htor01 : "tor01" = name
    · subst htor01
      rfl
    by_cases hshort : "::1" = name
    · subst hshort
      rfl
    by_cases hlong : "0::1" = name
    · subst hlong
      rfl
    · simp [edits, edits', List.find?, Edit.endpoint, htor01, hshort, hlong]
  exact ⟨h, (edited_by_name.2 edits edits' h).1⟩

end Switchover
