import Mathlib
import Switchover.Proofs.Delivery.ReadBack
import Switchover.Proofs.Json.Finite

/-!
Saved deliveries. What can be read from a text is in natural order and has finite times, whatever
the text looks like: fields in any order or given as a list, flags for counts, members that are
skipped or repeated. So it reads back once it is saved again, just as deliveries that were never
read do.
-/
namespace Switchover

open Json (Outline Decoded Respells AllFinite Yields)

/-! ### What a text can hold -/

theorem Window.allFinite_times {w : Window} :
    AllFinite w.times ↔ w.startTime.isFinite = true ∧ w.endTime.isFinite = true := by
  simp [AllFinite, times]

/-- A window that is read has finite times. -/
theorem Window.yields_ofJson {o : Outline} (ho : AllFinite o.reals) :
    Yields (ofJson o) fun w => AllFinite w.times := by
  have hzero : AllFinite (times ⟨0, 0, 0, 0⟩) := allFinite_times.mpr ⟨by decide, by decide⟩
  refine Json.Form.yields_decode (P := fun w : Window => AllFinite w.times) hzero
    (fun w k o hw ho => ?_) ho
  obtain ⟨hstart, hend⟩ := allFinite_times.mp hw
  have hread := Json.yields_toFloat ho
  simp only [form, Json.Form.lenient]
  split
  · exact Json.yields_bind Json.yields_true fun _ _ => Json.yields_ok hw
  · exact Json.yields_bind Json.yields_true fun _ _ => Json.yields_ok hw
  · exact Json.yields_bind hread fun t ht => Json.yields_ok (allFinite_times.mpr ⟨ht, hend⟩)
  · exact Json.yields_bind hread fun t ht => Json.yields_ok (allFinite_times.mpr ⟨hstart, ht⟩)
  · exact Json.yields_ok hw

/-- Whether the members held for a window have finite numbers. -/
def Duplication.Partial.Finite (p : Partial) : Prop :=
  ∀ x ∈ p.others, AllFinite x.2.reals

theorem Duplication.yields_member {level : Nat} {p : Partial} (hp : p.Finite) (key : Outline)
    {value : Outline} (hvalue : AllFinite value.reals) :
    Yields (p.member level key value) Partial.Finite := by
  refine Json.yields_bind Json.yields_true fun k _ => ?_
  split_ifs
  · split
    · exact Json.yields_error
    · exact Json.yields_bind Json.yields_true fun _ _ => Json.yields_ok hp
  · refine Json.yields_ok (List.forall_mem_append.mpr ⟨hp, ?_⟩)
    simpa using hvalue
  · exact Json.yields_error

/-- So has the window of a duplication. -/
theorem Duplication.yields_ofJson {level : Nat} {o : Outline} (ho : AllFinite o.reals) :
    Yields (ofJson level o) fun d => AllFinite d.window.times := by
  rw [ofJson.eq_def]
  split
  · refine Json.yields_bind (Json.yields_foldlM (P := Partial.Finite) nofun fun m hm p hp =>
      yields_member hp m.1 (Json.allFinite_of_mem_members ho hm)) fun p hp => ?_
    refine Json.yields_bind Json.yields_true fun _ _ => ?_
    split
    · exact Json.yields_error
    · refine Json.yields_bind (Window.yields_ofJson fun t ht => ?_) fun w hw => Json.yields_ok hw
      rw [Outline.reals, Json.membersReals_eq, List.flatMap_map] at ht
      obtain ⟨x, hx, ht⟩ := List.mem_flatMap.mp ht
      exact hp x hx t ht
  · exact Json.yields_refuse

theorem Delivery.allFinite_times {d : Delivery} : AllFinite d.times ↔
    (∀ w ∈ d.outages, AllFinite w.times) ∧ ∀ x ∈ d.duplications, AllFinite x.window.times := by
  simp only [AllFinite, times, List.forall_mem_append, List.forall_mem_flatMap]

/-- A delivery that is read has finite times. -/
theorem Delivery.yields_ofJson {level : Nat} {o : Outline} (ho : AllFinite o.reals) :
    Yields (ofJson level o) fun d => AllFinite d.times := by
  refine Json.Form.yields_decode nofun (fun d k o hd ho => ?_) ho
  obtain ⟨houtages, hduplications⟩ := allFinite_times.mp hd
  simp only [form, Json.Form.lenient]
  split
  · exact Json.yields_bind Json.yields_true fun _ _ => Json.yields_ok hd
  · exact Json.yields_bind Json.yields_true fun _ _ => Json.yields_ok hd
  · exact Json.yields_bind (Json.yields_toList (fun _ => Window.yields_ofJson) ho) fun ws hws =>
      Json.yields_ok (allFinite_times.mpr ⟨hws, hduplications⟩)
  · exact Json.yields_bind (Json.yields_toList (fun _ => Duplication.yields_ofJson) ho)
      fun xs hxs => Json.yields_ok (allFinite_times.mpr ⟨houtages, hxs⟩)
  · exact Json.yields_bind Json.yields_true fun _ _ => Json.yields_ok hd
  · exact Json.yields_bind Json.yields_true fun _ _ => Json.yields_ok hd
  · exact Json.yields_ok hd

/-- Deliveries that are read are in natural order and have finite times. -/
theorem Deliveries.yields_ofJson {o : Outline} (ho : AllFinite o.reals) :
    Yields (ofJson o) fun ds => ds.Ordered ∧ AllFinite ds.times := by
  intro ds h
  obtain ⟨entries, hread, rfl⟩ := Json.map_eq_ok.mp h
  have hall := Json.yields_toMembers (fun _ => Delivery.yields_ofJson) ho entries hread
  refine ⟨EndpointMap.ordered_ofList _, List.forall_mem_flatMap.mpr ?_⟩
  refine EndpointMap.forall_ofList (P := fun d : Delivery => AllFinite d.times) fun x hx => ?_
  obtain ⟨y, hy, rfl⟩ := List.mem_map.mp hx
  exact hall y hy

/-! ### Saved deliveries -/

/-- Whether deliveries are read as themselves from both forms in which they are saved. -/
def Deliveries.ReadsBack (ds : Deliveries) : Prop :=
  Json.decodeText ofJson ds.toJson.compact = .ok ds ∧
    Json.decodeText ofJson ds.toJson.indented = .ok ds

theorem Deliveries.readsBack_iff {ds : Deliveries} (hds : ds.Ordered) :
    ds.ReadsBack ↔ ∀ t ∈ ds.times, Respells t := by
  rw [ReadsBack, Json.decodeText_compact, Json.decodeText_indented, and_self, ofJson_eq_ok hds]

/-- Saved deliveries read back exactly if the numbers of their times do, whatever their endpoints
and counts are. Deliveries that were read from any text are in natural order and have finite times,
and so they read back on the same condition once they are saved again. -/
theorem Deliveries.saved_reads_back :
    (∀ ds : Deliveries, ds.Ordered → (ds.ReadsBack ↔ ∀ t ∈ ds.times, Respells t)) ∧
      ∀ (s : String) (ds : Deliveries), Json.decodeText ofJson s = .ok ds →
        ds.Ordered ∧ AllFinite ds.times ∧ (ds.ReadsBack ↔ ∀ t ∈ ds.times, Respells t) := by
  refine ⟨fun ds hds => readsBack_iff hds, fun s ds h => ?_⟩
  obtain ⟨hordered, hfinite⟩ := Json.yields_decodeText (fun _ => yields_ofJson) s ds h
  exact ⟨hordered, hfinite, readsBack_iff hordered⟩

-- equal deliveries are told by their parts, so what a text is read as can be computed
deriving instance DecidableEq for Window, Duplication, Delivery, EndpointMap

theorem respells_quarter : Respells 0.25 := by
  have hread : Json.readSpelling (Json.realLiteral 0.25) =
      some (⟨false, ['0'], ['2', '5'], none⟩, []) := by
    have hchars : Json.realLiteral 0.25 = ['0', '.', '2', '5'] := by decide +kernel
    rw [hchars]
    rfl
  have hscale : Json.scale (UInt64.ofNat 25).toFloat (-2) = some 0.25 := by
    rw [Json.scale]
    decide +kernel
  refine Json.respells_of_value hread ?_
  change Json.realValue false 25 (-2) = _
  rw [Json.realValue, hscale]
  rfl

/-- An endpoint with a quote, a control character, a backslash and a letter beyond ASCII, and a text
that gives one loss as a flag and leaves the other one out. -/
theorem Deliveries.saved_reads_back_flag :
    let ds : Deliveries := .ofList [(⟨"\"\x01\\é"⟩,
      ⟨5, 2, [⟨1, 3, 0.25, 0.25⟩], [⟨⟨4, 4, 0.25, 0.25⟩, 4294967295⟩], 0, 18446744073709551615⟩)]
    let text := "\x7b\"a\": \x7b\"sent_packets\": 5, \"received_packets\": 2, " ++
      "\"disruption_before_traffic\": true\x7d\x7d"
    let read : Deliveries := .ofList [(⟨"a"⟩, ⟨5, 2, [], [], 1, 0⟩)]
    ds.Ordered ∧ ds.ReadsBack ∧ Json.decodeText ofJson text = .ok read ∧ read.ReadsBack := by
  intro ds text read
  have hds : ds.Ordered := EndpointMap.ordered_ofList _
  have htimes : ∀ t ∈ ds.times, Respells t := by
    have hall : ds.times = [0.25, 0.25, 0.25, 0.25] := by rfl
    rw [hall]
    simpa using respells_quarter
  have hread : Json.decodeText ofJson text = .ok read :=
    Json.eq_ok_of_toOption (by decide +kernel)
  exact ⟨hds, (saved_reads_back.1 ds hds).mpr htimes, hread,
    (saved_reads_back.2 text read hread).2.2.mpr nofun⟩

end Switchover
