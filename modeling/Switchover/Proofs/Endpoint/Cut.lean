import Mathlib
import Switchover.Proofs.Endpoint.Order

/-!
Maps cut at an endpoint. The entries of a map in natural order are those before an endpoint, its own
one if it has one, and those behind it. Inserting a value for the endpoint or erasing it changes the
middle part and nothing else, so that what is read off the entries from the front to the back
changes in one place only.
-/
namespace Switchover.EndpointMap

variable {α β : Type}

/-- Whether the entries stand in natural order, each endpoint once. -/
def Ordered (m : EndpointMap α) : Prop :=
  m.entries.Pairwise fun x y => x.1.order y.1 = .lt

/-- The entry of an endpoint, if it has one. -/
def own (m : EndpointMap α) (e : Endpoint) : List (Endpoint × α) :=
  ((m.get? e).map (e, ·)).toList

/-- Whether `front` and `back` are the entries before and behind an endpoint. -/
structure Cut (m : EndpointMap α) (e : Endpoint) (front back : List (Endpoint × α)) : Prop where
  front_lt : ∀ x ∈ front, x.1.order e = .lt
  lt_back : ∀ x ∈ back, e.order x.1 = .lt
  entries_eq : m.entries = front ++ m.own e ++ back
  entries_insert : ∀ v, (m.insert e v).entries = front ++ (e, v) :: back
  entries_erase : (m.erase e).entries = front ++ back

theorem find_eq_none {e : Endpoint} {l : List (Endpoint × α)} (h : ∀ x ∈ l, e.order x.1 = .lt) :
    find e l = none := by
  induction l with
  | nil => rfl
  | cons x l ih =>
    have hne : e ≠ x.1 := Endpoint.ne_of_order_lt (h x (List.mem_cons_self ..))
    rw [find_cons, if_neg hne]
    exact ih fun y hy => h y (List.mem_cons_of_mem x hy)

theorem filter_order_ne {e : Endpoint} {l : List (Endpoint × α)} (h : ∀ x ∈ l, e.order x.1 = .lt) :
    l.filter (fun x => e.order x.1 ≠ .eq) = l := by
  refine List.filter_eq_self.mpr fun x hx => ?_
  rw [h x hx]
  rfl

/-- What is before an endpoint is before all that is behind it. -/
theorem forall_order_lt {e k : Endpoint} (w : α) {l : List (Endpoint × α)}
    (horder : e.order k = .lt) (hk : ∀ x ∈ l, k.order x.1 = .lt) :
    ∀ x ∈ (k, w) :: l, e.order x.1 = .lt := by
  intro x hx
  rcases List.mem_cons.mp hx with rfl | hx
  · exact horder
  · exact Std.TransCmp.lt_trans horder (hk x hx)

/-- A map in natural order can be cut at any endpoint. -/
theorem exists_cut {m : EndpointMap α} (h : m.Ordered) (e : Endpoint) :
    ∃ front back, Cut m e front back := by
  obtain ⟨l⟩ := m
  induction l with
  | nil => exact ⟨[], [], by simp, by simp, rfl, fun v => rfl, rfl⟩
  | cons x l ih =>
    obtain ⟨k, w⟩ := x
    obtain ⟨hk, hl⟩ := List.pairwise_cons.mp h
    cases horder : e.order k with
    | lt =>
      have hback := forall_order_lt w horder hk
      refine ⟨[], (k, w) :: l, by simp, hback, ?_, fun v => ?_, filter_order_ne hback⟩
      · rw [own, get?, find_eq_none hback]; rfl
      · rw [insert, insertEntry, horder]; rfl
    | eq =>
      obtain rfl := Endpoint.order_eq_iff.mp horder
      refine ⟨[], l, by simp, hk, ?_, fun v => ?_, ?_⟩
      · rw [own, get?, find_cons, if_pos rfl]; rfl
      · rw [insert, insertEntry, horder]; rfl
      · rw [erase, List.filter_cons_of_neg (by simpa using horder), filter_order_ne hk]; rfl
    | gt =>
      obtain ⟨front, back, hfront, hback, hentries, hinsert, herase⟩ := ih hl
      have hlt : k.order e = .lt := by rw [Endpoint.order_swap, horder]; rfl
      have hne : e ≠ k := fun heq => by
        rw [Endpoint.order_eq_iff.mpr heq] at horder
        cases horder
      refine ⟨(k, w) :: front, back, fun x hx => ?_, hback, ?_, fun v => ?_, ?_⟩
      · rcases List.mem_cons.mp hx with rfl | hx
        · exact hlt
        · exact hfront x hx
      · rw [own, get?, find_cons, if_neg hne]
        exact congrArg ((k, w) :: ·) hentries
      · rw [insert, insertEntry, horder]
        exact congrArg ((k, w) :: ·) (hinsert v)
      · rw [erase, List.filter_cons_of_pos (by rw [horder]; rfl)]
        exact congrArg ((k, w) :: ·) herase

section Ordered
variable {m : EndpointMap α} {e : Endpoint}

theorem ordered_empty : (empty : EndpointMap α).Ordered :=
  List.Pairwise.nil

theorem ordered_insert (h : m.Ordered) (v : α) : (m.insert e v).Ordered := by
  obtain ⟨front, back, hfront, hback, hentries, hinsert, -⟩ := exists_cut h e
  have hall := h
  rw [Ordered, hentries, List.append_assoc, List.pairwise_append] at hall
  rw [Ordered, hinsert]
  refine List.pairwise_append.mpr ⟨hall.1, List.pairwise_cons.mpr ⟨hback, ?_⟩, fun x hx y hy => ?_⟩
  · exact (List.pairwise_append.mp hall.2.1).2.1
  · rcases List.mem_cons.mp hy with rfl | hy
    · exact hfront x hx
    · exact Std.TransCmp.lt_trans (hfront x hx) (hback y hy)

theorem ordered_erase (h : m.Ordered) : (m.erase e).Ordered :=
  List.Pairwise.filter _ h

/-- Every map that is built by inserting is in natural order. -/
theorem ordered_ofList (entries : List (Endpoint × α)) : (ofList entries).Ordered := by
  induction entries using List.reverseRecOn with
  | nil => exact ordered_empty
  | append_singleton entries x ih =>
    rw [ofList, List.foldl_append, ← ofList]
    exact ordered_insert ih x.2

theorem insertEntry_append {l : List (Endpoint × α)} (h : ∀ x ∈ l, x.1.order e = .lt) (v : α) :
    insertEntry e v l = l ++ [(e, v)] := by
  induction l with
  | nil => rfl
  | cons x l ih =>
    obtain ⟨hx, hl⟩ := List.forall_mem_cons.mp h
    have horder : e.order x.1 = .gt := by
      rw [Endpoint.order_swap, hx]
      rfl
    rw [insertEntry, horder]
    exact congrArg (x :: ·) (ih hl)

/-- Inserting the entries of a map in natural order gives the map back. -/
theorem ofList_entries (h : m.Ordered) : ofList m.entries = m := by
  obtain ⟨l⟩ := m
  induction l using List.reverseRecOn with
  | nil => rfl
  | append_singleton l x ih =>
    obtain ⟨hl, -, hx⟩ := List.pairwise_append.mp h
    have hlast : ∀ y ∈ l, y.1.order x.1 = .lt := fun y hy => hx y hy x (List.mem_singleton_self x)
    have hfront : ofList l = ⟨l⟩ := ih hl
    rw [ofList, List.foldl_append, ← ofList, hfront]
    exact congrArg mk (insertEntry_append hlast x.2)

end Ordered

/-! ### Values with a property -/

section Values
variable {P : α → Prop}

theorem forall_insertEntry {l : List (Endpoint × α)} (hl : ∀ x ∈ l, P x.2) (e : Endpoint) {v : α}
    (hv : P v) : ∀ x ∈ insertEntry e v l, P x.2 := by
  induction l with
  | nil => simpa [insertEntry] using hv
  | cons x l ih =>
    obtain ⟨hx, hrest⟩ := List.forall_mem_cons.mp hl
    rw [insertEntry]
    split
    · exact List.forall_mem_cons.mpr ⟨hv, hl⟩
    · exact List.forall_mem_cons.mpr ⟨hv, hrest⟩
    · exact List.forall_mem_cons.mpr ⟨hx, ih hrest⟩

/-- A map built by inserting has no other values than those inserted. -/
theorem forall_ofList {entries : List (Endpoint × α)} (h : ∀ x ∈ entries, P x.2) :
    ∀ x ∈ (ofList entries).entries, P x.2 := by
  induction entries using List.reverseRecOn with
  | nil => exact nofun
  | append_singleton entries x ih =>
    obtain ⟨hentries, hx⟩ := List.forall_mem_append.mp h
    rw [ofList, List.foldl_append, ← ofList]
    exact forall_insertEntry (ih hentries) x.1 (hx x (List.mem_singleton_self x))

end Values

/-! ### Maps of values -/

section Map
variable (f : Endpoint → α → β) (m : EndpointMap α) (e : Endpoint)

@[simp] theorem keys_map : (m.map f).keys = m.keys := by
  simp [keys, map]

theorem get?_map : (m.map f).get? e = (m.get? e).map (f e) := by
  obtain ⟨l⟩ := m
  rw [map, get?, get?]
  induction l with
  | nil => rfl
  | cons x l ih =>
    rw [List.map_cons, find_cons, find_cons, ih]
    split_ifs with heq
    · rw [heq]; rfl
    · rfl

theorem map_insert (v : α) : (m.insert e v).map f = (m.map f).insert e (f e v) := by
  obtain ⟨l⟩ := m
  rw [map, insert, insert, map, mk.injEq]
  induction l with
  | nil => rfl
  | cons x l ih =>
    rw [List.map_cons, insertEntry, insertEntry]
    cases horder : e.order x.1 with
    | lt => rfl
    | eq => rw [Endpoint.order_eq_iff.mp horder]; rfl
    | gt => exact congrArg (_ :: ·) ih

theorem map_erase : (m.erase e).map f = (m.map f).erase e := by
  rw [map, erase, erase, map, List.filter_map]
  rfl

end Map

end Switchover.EndpointMap
