import Mathlib
import Switchover.Delivery.Json
import Switchover.Proofs.Endpoint.Cut
import Switchover.Proofs.Json.Decoding

/-!
Deliveries read from what was written of them. Each structure is written as a table of all its
fields, so it is read by accepting them in order: identifiers and counts come back as they were, and
a time comes back if its number does. The window of a duplication is first held as a part of a
larger table; a number that reads back can be held, so this adds no condition.
-/
namespace Switchover

open Json (Value Outline Decoded Form Respells bind_eq_ok)

namespace Window

/-- The times of a window. -/
def times (w : Window) : List Float :=
  [w.startTime, w.endTime]

/-- What the fields of a window are read as. -/
def outlines (w : Window) : List (String × Outline) :=
  w.members.map fun m => (m.1, m.2.outline)

theorem outline_toJson (w : Window) : w.toJson.outline = .table (Json.keyed w.outlines) true := by
  simp [toJson, Value.outline, Json.membersOutline_eq_map, Json.keyed, outlines]

/-- Only the times of a window can keep it from being read. -/
theorem ofJson_keyed (w : Window) : ofJson (.table (Json.keyed w.outlines) true) = do
    let startTime ← (Json.realOutline w.startTime).toFloat
    let endTime ← (Json.realOutline w.endTime).toFloat
    return { w with startTime, endTime } := by
  rw [ofJson, form.decode_table rfl (by decide)]
  simp [form, Form.acceptAll, outlines, members, Form.lenient, Json.toUInt64_word, Json.ok_bind,
    Value.outline]

/-- A window reads back if its times do. -/
theorem ofJson_eq_ok {w : Window} :
    ofJson (.table (Json.keyed w.outlines) true) = .ok w ↔ ∀ t ∈ w.times, Respells t := by
  rw [ofJson_keyed]
  simp only [times, List.forall_mem_cons, List.not_mem_nil, false_implies, implies_true, and_true,
    Json.respells_iff, bind_eq_ok]
  constructor
  · rintro ⟨s, hs, e, he, h⟩
    obtain ⟨rfl, rfl⟩ : s = w.startTime ∧ e = w.endTime := by
      have hw := Except.ok.inj h
      exact ⟨congrArg startTime hw, congrArg endTime hw⟩
    exact ⟨hs, he⟩
  · rintro ⟨hs, he⟩
    exact ⟨_, hs, _, he, rfl⟩

end Window

namespace Duplication

/-- Every member but the number of copies is held for the window. One that cannot be held fails the
whole duplication. -/
theorem foldlM_member (level : Nat) {members : List (String × Outline)}
    (hkeys : "duplication_count" ∉ members.map Prod.fst) (p : Partial) :
    (Json.keyed members).foldlM (fun p m => p.member level m.1 m.2) p =
      if members.all fun m => m.2.isHeld (Json.deepest - level) then
        .ok { p with others := p.others ++ members }
      else .error .malformed := by
  induction members generalizing p with
  | nil =>
    rw [List.append_nil]
    rfl
  | cons m ms ih =>
    rw [List.map_cons, List.mem_cons, not_or] at hkeys
    rw [Json.keyed, List.map_cons, ← Json.keyed, List.foldlM_cons, Partial.member, Outline.toKey,
      Json.ok_bind, if_neg (Ne.symm hkeys.1), List.all_cons]
    cases m.2.isHeld (Json.deepest - level) with
    | true =>
      rw [if_pos rfl, pure_bind, ih hkeys.2, Bool.true_and, List.append_assoc]
      rfl
    | false => rfl

/-- The members of a window can be held if its times read back. -/
theorem isHeld_outlines {w : Window} (h : ∀ t ∈ w.times, Respells t) (levels : Nat) :
    (w.outlines.all fun m => m.2.isHeld levels) = true := by
  have hstart := Json.respells_iff.mp (h w.startTime (by simp [Window.times]))
  have hend := Json.respells_iff.mp (h w.endTime (by simp [Window.times]))
  simp [Window.outlines, Window.members, Json.outline_word, Outline.isHeld, Value.outline,
    Json.isHeld_of_toFloat hstart, Json.isHeld_of_toFloat hend]

/-- The window is read from what was held of it, the number of copies from its own member. -/
theorem ofJson_outline (level : Nat) (d : Duplication) : ofJson level d.toJson.outline =
    if d.window.outlines.all fun m => m.2.isHeld (Json.deepest - (level + 1)) then
      (Window.ofJson (.table (Json.keyed d.window.outlines) true)).map (⟨·, d.excess⟩)
    else .error .malformed := by
  have houtline : d.toJson.outline = .table (Json.keyed d.window.outlines ++
      [(.text (some "duplication_count"), (Value.int d.excess.toNat).outline)]) true := by
    simp [toJson, Value.outline, Json.membersOutline_eq_map, Json.keyed, Window.outlines]
  have hkeys : "duplication_count" ∉ d.window.outlines.map Prod.fst := by
    simp [Window.outlines, Window.members]
  have hfold := foldlM_member (level + 1) hkeys ⟨none, []⟩
  rw [houtline, ofJson, List.foldlM_append, hfold]
  split_ifs
  · have hread := Json.toUInt32_int d.excess
    simp [Json.ok_bind, Partial.member, Outline.toKey, hread, Outline.finish]
    rfl
  · rfl

/-- A duplication reads back if the times of its window do. -/
theorem ofJson_eq_ok (level : Nat) {d : Duplication} :
    ofJson level d.toJson.outline = .ok d ↔ ∀ t ∈ d.window.times, Respells t := by
  rw [ofJson_outline]
  constructor
  · intro h
    split_ifs at h
    obtain ⟨w, hw, hd⟩ := Json.map_eq_ok.mp h
    obtain rfl : w = d.window := congrArg window hd
    exact Window.ofJson_eq_ok.mp hw
  · intro h
    rw [if_pos (isHeld_outlines h _), Window.ofJson_eq_ok.mpr h]
    rfl

end Duplication

namespace Delivery

/-- The times of a delivery. -/
def times (d : Delivery) : List Float :=
  d.outages.flatMap Window.times ++ d.duplications.flatMap fun x => x.window.times

/-- A count is no flag, so a loss that was written as a count is read as one. -/
theorem edgeLoss_word (level : Nat) (n : UInt64) :
    edgeLoss level (Value.word n).outline = .ok n := by
  have hread := Json.toUInt64_word n
  rw [Json.outline_word] at hread ⊢
  rw [edgeLoss, Json.firstOf, if_pos (by rfl)]
  simp [hread, Outline.toBool, Outline.refuse, Outline.found?, Except.map, Except.toOption]

/-- What the fields of a delivery are read as. -/
def outlines (d : Delivery) : List (String × Outline) :=
  [("sent_packets", (Value.word d.sent).outline),
    ("received_packets", (Value.word d.received).outline),
    ("disruptions", (Value.list (d.outages.map Window.toJson)).outline),
    ("duplications", (Value.list (d.duplications.map Duplication.toJson)).outline),
    ("disruption_before_traffic", (Value.word d.missingBefore).outline),
    ("disruption_after_traffic", (Value.word d.missingAfter).outline)]

/-- Only the outages and duplications of a delivery can keep it from being read. -/
theorem ofJson_outline (level : Nat) (d : Delivery) : ofJson level d.toJson.outline = do
    let outages ← (Value.list (d.outages.map Window.toJson)).outline.toList Window.ofJson
    let duplications ← (Value.list (d.duplications.map Duplication.toJson)).outline.toList
      (Duplication.ofJson (level + 2))
    return { d with outages, duplications } := by
  have houtline : d.toJson.outline = .table (Json.keyed d.outlines) true := by
    simp [toJson, Value.outline, Json.membersOutline_eq_map, Json.keyed, outlines]
  have hnodup : (form level).fields.Nodup := by simp [form, Form.lenient]
  rw [houtline, ofJson, (form level).decode_table rfl hnodup]
  simp [form, Form.acceptAll, outlines, Form.lenient, Json.toUInt64_word, Json.ok_bind,
    edgeLoss_word, -bind_pure_comp]

/-- A delivery reads back if its times do. -/
theorem ofJson_eq_ok (level : Nat) {d : Delivery} :
    ofJson level d.toJson.outline = .ok d ↔ ∀ t ∈ d.times, Respells t := by
  have houtages := Json.toList_outline Window.toJson Window.ofJson d.outages
  have hduplications := Json.toList_outline Duplication.toJson (Duplication.ofJson (level + 2))
    d.duplications
  simp only [Window.outline_toJson, Window.ofJson_eq_ok] at houtages
  simp only [Duplication.ofJson_eq_ok] at hduplications
  simp only [ofJson_outline, times, List.forall_mem_append, List.forall_mem_flatMap, ← houtages,
    ← hduplications, bind_eq_ok]
  constructor
  · rintro ⟨os, hos, ds, hds, h⟩
    have hd := Except.ok.inj h
    obtain rfl : os = d.outages := congrArg outages hd
    obtain rfl : ds = d.duplications := congrArg duplications hd
    exact ⟨hos, hds⟩
  · rintro ⟨hos, hds⟩
    exact ⟨_, hos, _, hds, rfl⟩

end Delivery

namespace Deliveries

/-- The times of all deliveries. -/
def times (ds : Deliveries) : List Float :=
  ds.entries.flatMap fun x => x.2.times

/-- Whether an entry is what another one is read as once it is written. -/
def Reads (x y : Endpoint × Delivery) : Prop :=
  x.1 = y.1 ∧ Delivery.ofJson 1 x.2.toJson.outline = .ok y.2

/-- A written map is read entry by entry. -/
theorem ofJson_outline {ds es : Deliveries} : ofJson ds.toJson.outline = .ok es ↔
    ∃ entries, List.Forall₂ Reads ds.entries entries ∧ EndpointMap.ofList entries = es := by
  simp only [ofJson, Json.map_eq_ok, toJson, Json.toMembers_outline, List.forall₂_map_left_iff]
  constructor
  · rintro ⟨members, hread, hmap⟩
    refine ⟨_, List.forall₂_map_right_iff.mpr (hread.imp ?_), hmap⟩
    rintro x y ⟨hname, hd⟩
    exact ⟨congrArg Endpoint.mk hname, hd⟩
  · rintro ⟨entries, hread, rfl⟩
    refine ⟨entries.map fun x => (x.1.name, x.2), List.forall₂_map_right_iff.mpr (hread.imp ?_), ?_⟩
    · rintro x y ⟨he, hd⟩
      exact ⟨congrArg Endpoint.name he, hd⟩
    · rw [List.map_map]
      exact congrArg EndpointMap.ofList (List.map_id _)

/-- Deliveries in natural order read back if their times do. -/
theorem ofJson_eq_ok {ds : Deliveries} (hds : ds.Ordered) :
    ofJson ds.toJson.outline = .ok ds ↔ ∀ t ∈ ds.times, Respells t := by
  simp only [ofJson_outline, times, List.forall_mem_flatMap, ← Delivery.ofJson_eq_ok 1]
  constructor
  · rintro ⟨entries, hread, hentries⟩
    -- the endpoints are the same in the same order, so that inserting them changes nothing
    have hkeys : ds.entries.map Prod.fst = entries.map Prod.fst := by
      rw [← List.forall₂_eq_eq_eq, List.forall₂_map_left_iff, List.forall₂_map_right_iff]
      exact hread.imp fun x y h => h.1
    have hordered : EndpointMap.Ordered ⟨entries⟩ := by
      have h : (ds.entries.map Prod.fst).Pairwise fun a b => a.order b = .lt :=
        List.pairwise_map.mpr hds
      rw [hkeys] at h
      exact List.pairwise_map.mp h
    have hmap : EndpointMap.ofList entries = ⟨entries⟩ := EndpointMap.ofList_entries hordered
    obtain rfl : (⟨entries⟩ : Deliveries) = ds := hmap.symm.trans hentries
    exact fun x hx => (List.forall₂_same.mp hread x hx).2
  · intro h
    exact ⟨ds.entries, List.forall₂_same.mpr fun x hx => ⟨rfl, h x hx⟩,
      EndpointMap.ofList_entries hds⟩

end Deliveries

end Switchover
