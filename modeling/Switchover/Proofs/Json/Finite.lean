import Mathlib
import Switchover.Proofs.Finite
import Switchover.Proofs.Json.Decoding

/-!
Numbers read from a text. They are finite, whatever the text is: a number is scaled by powers of ten
that are finite themselves, dividing by them brings it nearer to zero, and a product that becomes
infinite counts as no number. What is finite in an outline stays so in everything read from it.
-/
namespace Switchover.Json

open Decimal (nearestDecimal)

/-! ### Numbers -/

/-- The powers of ten by which numbers are multiplied and divided. -/
theorem isLength_nearestDecimal : ∀ k ∈ List.range 309,
    IsLength (nearestDecimal false 1 k) ∧ (0 < k → 2 ≤ nearestDecimal false 1 k) := by
  unfold IsLength
  decide +kernel

theorem isFinite_nearestDecimal {k : Int} (hk : 0 ≤ k) (hle : k ≤ 308) :
    (nearestDecimal false 1 k).isFinite = true := by
  obtain ⟨n, rfl⟩ := Int.eq_ofNat_of_zero_le hk
  exact (isLength_nearestDecimal n (List.mem_range.mpr (by omega))).1.1

theorem isFinite_div_nearestDecimal {x : Float} (hx : x.isFinite = true) {k : Int} (hk : 0 < k)
    (hle : k ≤ 308) : (x / nearestDecimal false 1 k).isFinite = true := by
  obtain ⟨n, rfl⟩ := Int.eq_ofNat_of_zero_le hk.le
  obtain ⟨hlength, htwo⟩ := isLength_nearestDecimal n (List.mem_range.mpr (by omega))
  exact isFinite_div hx hlength (htwo (by omega))

/-- A number is scaled by finite powers of ten, and an infinite result is none. -/
theorem isFinite_scale {x y : Float} {e : Int} (hx : x.isFinite = true) (h : scale x e = some y) :
    y.isFinite = true := by
  induction x, e using scale.induct with
  | case1 x e hlow hzero =>
    rw [scale, if_pos hlow, if_pos hzero] at h
    exact Option.some.inj h ▸ hx
  | case2 x e hlow hzero ih =>
    rw [scale, if_pos hlow, if_neg hzero] at h
    exact ih (isFinite_div_nearestDecimal hx (by decide) (by decide)) h
  | case3 x e hlow hneg =>
    rw [scale, if_neg hlow, if_pos hneg] at h
    exact Option.some.inj h ▸ isFinite_div_nearestDecimal hx (by omega) (by omega)
  | case4 x e hlow hneg hhigh hzero =>
    rw [scale, if_neg hlow, if_neg hneg, if_pos hhigh, if_pos hzero] at h
    exact Option.some.inj h ▸ hx
  | case5 x e hlow hneg hhigh hzero =>
    rw [scale, if_neg hlow, if_neg hneg, if_pos hhigh, if_neg hzero] at h
    cases h
  | case6 x e hlow hneg hhigh z hinf =>
    rw [scale, if_neg hlow, if_neg hneg, if_neg hhigh, if_pos hinf] at h
    cases h
  | case7 x e hlow hneg hhigh z hinf =>
    rw [scale, if_neg hlow, if_neg hneg, if_neg hhigh, if_neg hinf] at h
    obtain rfl := Option.some.inj h
    exact isFinite_mul hx (isFinite_nearestDecimal (by omega) (by omega)) (by simpa using hinf)

/-- The number, if it need not be whole. -/
def Number.reals : Number → List Float
  | .real x => [x]
  | _ => []

/-- Whether all numbers are finite. -/
def AllFinite (xs : List Float) : Prop :=
  ∀ x ∈ xs, x.isFinite = true

theorem allFinite_nil : AllFinite [] := nofun

theorem allFinite_append {xs ys : List Float} :
    AllFinite (xs ++ ys) ↔ AllFinite xs ∧ AllFinite ys :=
  List.forall_mem_append

theorem allFinite_realValue {minus : Bool} {significand : Nat} {exponent : Int} {n : Number}
    (h : realValue minus significand exponent = some n) : AllFinite n.reals := by
  obtain ⟨x, hscale, rfl⟩ := Option.map_eq_some_iff.mp h
  have hx := isFinite_scale (isFinite_toFloat _) hscale
  cases minus with
  | true => simpa [AllFinite, Number.reals] using isFinite_neg hx
  | false => simpa [AllFinite, Number.reals] using hx

theorem allFinite_wholeValue (minus : Bool) (n : Nat) : AllFinite (wholeValue minus n).reals := by
  rw [wholeValue]
  split_ifs
  · exact nofun
  · exact nofun
  · simpa [AllFinite, Number.reals] using isFinite_neg (isFinite_toFloat _)

/-- The value of a spelling is finite. -/
theorem allFinite_value {s : Spelling} {n : Number} (h : s.value = some n) : AllFinite n.reals := by
  rw [Spelling.value] at h
  dsimp only at h
  split at h
  · split_ifs at h
    · exact Option.some.inj h ▸ allFinite_wholeValue _ _
    · exact allFinite_realValue h
  · split at h
    · exact allFinite_realValue h
    · -- an exponent out of bounds leaves zero, of either sign
      split_ifs at h <;>
      · obtain rfl := Option.some.inj h
        intro x hx
        obtain rfl := List.mem_singleton.mp hx
        decide

/-! ### Outlines -/

mutual

/-- The numbers of an outline that need not be whole; those of its keys do not count. -/
def Outline.reals : Outline → List Float
  | .number value => value.elim [] Number.reals
  | .list items _ => itemsReals items
  | .table members _ => membersReals members
  | _ => []

/-- The numbers of some items. -/
def itemsReals : List Outline → List Float
  | [] => []
  | o :: os => o.reals ++ itemsReals os

/-- The numbers of some members. -/
def membersReals : List (Outline × Outline) → List Float
  | [] => []
  | (_, o) :: ms => o.reals ++ membersReals ms

end

theorem itemsReals_eq (items : List Outline) : itemsReals items = items.flatMap Outline.reals := by
  induction items with
  | nil => rfl
  | cons o os ih => rw [itemsReals, ih, List.flatMap_cons]

theorem membersReals_eq (members : List (Outline × Outline)) :
    membersReals members = members.flatMap fun m => m.2.reals := by
  induction members with
  | nil => rfl
  | cons m ms ih => rw [membersReals, ih, List.flatMap_cons]

section Steps
variable {fuel : Nat} (hvalue : ∀ s, AllFinite (readValue fuel s).1.reals)
include hvalue

theorem allFinite_readItems (hitems : ∀ s, AllFinite (itemsReals (readItems fuel s).1))
    (s : List Char) : AllFinite (itemsReals (readItems (fuel + 1) s).1) := by
  have hone : ∀ o : Outline, AllFinite o.reals → AllFinite (itemsReals [o]) := fun o ho =>
    allFinite_append.mpr ⟨ho, allFinite_nil⟩
  have hitem := hvalue s
  rcases hread : readValue fuel s with ⟨item, _ | r⟩ <;> rw [hread] at hitem <;>
    rw [readItems, hread]
  · exact hone _ hitem
  · dsimp only
    split
    · exact allFinite_append.mpr ⟨hitem, hitems _⟩
    · exact hone _ hitem
    · exact hone _ hitem

theorem allFinite_readMembers (hmembers : ∀ s, AllFinite (membersReals (readMembers fuel s).1))
    (s : List Char) : AllFinite (membersReals (readMembers (fuel + 1) s).1) := by
  have hone : ∀ k o : Outline, AllFinite o.reals → AllFinite (membersReals [(k, o)]) :=
    fun _ _ ho => allFinite_append.mpr ⟨ho, allFinite_nil⟩
  rw [readMembers]
  split
  · split
    · next r _ =>
      have hmember := hvalue r
      rcases hread : readValue fuel r with ⟨member, _ | r'⟩ <;> rw [hread] at hmember
      · exact hone _ _ hmember
      · dsimp only
        split
        · exact allFinite_append.mpr ⟨hmember, hmembers _⟩
        · exact hone _ _ hmember
        · exact hone _ _ hmember
    · exact hone _ _ allFinite_nil
  · exact hone _ _ allFinite_nil

end Steps

/-- What is read from a text has finite numbers only, also where the text breaks off. -/
theorem allFinite_read (fuel : Nat) :
    (∀ s, AllFinite (readValue fuel s).1.reals) ∧
      (∀ s, AllFinite (itemsReals (readItems fuel s).1)) ∧
        ∀ s, AllFinite (membersReals (readMembers fuel s).1) := by
  induction fuel with
  | zero => exact ⟨fun _ => allFinite_nil, fun _ => allFinite_nil, fun _ => allFinite_nil⟩
  | succ fuel ih =>
    obtain ⟨hvalue, hitems, hmembers⟩ := ih
    refine ⟨fun s => ?_, allFinite_readItems hvalue hitems, allFinite_readMembers hvalue hmembers⟩
    rw [readValue]
    split
    · exact allFinite_nil
    · exact allFinite_nil
    · exact allFinite_nil
    · split <;> exact allFinite_nil
    · split
      · exact allFinite_nil
      · exact hitems _
    · split
      · exact allFinite_nil
      · exact hmembers _
    · split
      · next n r _ =>
        cases hn : n.value with
        | none => exact allFinite_nil
        | some n => exact allFinite_value hn
      · exact allFinite_nil

/-- A whole text has finite numbers only. -/
theorem allFinite_readText (s : String) : AllFinite (readText s).1.reals := by
  have hvalue := (allFinite_read (2 * s.toList.length + 2)).1 s.toList
  rcases hread : readValue (2 * s.toList.length + 2) s.toList with ⟨o, _ | r⟩ <;>
    rw [hread] at hvalue <;> simpa only [readText, hread] using hvalue

/-! ### Typed reading -/

/-- Whether a value has a property, if one is read at all. -/
def Yields {α : Type} (r : Decoded α) (P : α → Prop) : Prop :=
  ∀ a, r = .ok a → P a

section Yields
variable {α β : Type} {P : α → Prop} {Q : β → Prop}

theorem yields_ok {a : α} (h : P a) : Yields (.ok a) P := by
  rintro _ ⟨⟩
  exact h

theorem yields_error {e : Fault} : Yields (.error e) P := nofun

theorem yields_bind {x : Decoded α} {f : α → Decoded β} (hx : Yields x P)
    (hf : ∀ a, P a → Yields (f a) Q) : Yields (x >>= f) Q := by
  intro b h
  obtain ⟨a, ha, hb⟩ := bind_eq_ok.mp h
  exact hf a (hx a ha) b hb

theorem yields_true {x : Decoded α} : Yields x fun _ => True := fun _ _ => trivial

theorem yields_foldlM {f : α → β → Decoded α} {l : List β} {a : α} (ha : P a)
    (hf : ∀ b ∈ l, ∀ a, P a → Yields (f a b) P) : Yields (l.foldlM f a) P := by
  induction l generalizing a with
  | nil => exact yields_ok ha
  | cons b l ih =>
    obtain ⟨hb, hl⟩ := List.forall_mem_cons.mp hf
    rw [List.foldlM_cons]
    exact yields_bind (hb a ha) fun c hc => ih hc hl

theorem yields_mapM {f : β → Decoded α} {l : List β} (hf : ∀ b ∈ l, Yields (f b) P) :
    Yields (l.mapM f) fun as => ∀ a ∈ as, P a := by
  intro as h
  have hall := mapM_eq_ok.mp h
  induction hall with
  | nil => exact nofun
  | cons hb hrest ih =>
    obtain ⟨hfirst, hf⟩ := List.forall_mem_cons.mp hf
    exact List.forall_mem_cons.mpr ⟨hfirst _ hb, ih hf (mapM_eq_ok.mpr hrest)⟩

theorem yields_refuse {o : Outline} {expected : String} : Yields (o.refuse expected) P := by
  rw [Outline.refuse]
  split <;> exact yields_error

theorem yields_toFloat {o : Outline} (ho : AllFinite o.reals) :
    Yields o.toFloat fun x => x.isFinite = true := by
  rw [Outline.toFloat.eq_def]
  split
  · exact yields_ok (isFinite_toFloat _)
  · exact yields_ok (isFinite_neg (isFinite_toFloat _))
  · exact yields_ok (ho _ (List.mem_singleton_self _))
  · exact yields_refuse

theorem allFinite_of_mem {items : List Outline} (h : AllFinite (itemsReals items)) {o : Outline}
    (ho : o ∈ items) : AllFinite o.reals := by
  rw [itemsReals_eq] at h
  exact fun x hx => h x (List.mem_flatMap.mpr ⟨o, ho, hx⟩)

theorem allFinite_of_mem_members {members : List (Outline × Outline)}
    (h : AllFinite (membersReals members)) {m : Outline × Outline} (hm : m ∈ members) :
    AllFinite m.2.reals := by
  rw [membersReals_eq] at h
  exact fun x hx => h x (List.mem_flatMap.mpr ⟨m, hm, hx⟩)

section Readers
variable {read : Outline → Decoded α} (hread : ∀ o, AllFinite o.reals → Yields (read o) P)
include hread

theorem yields_toList {o : Outline} (ho : AllFinite o.reals) :
    Yields (o.toList read) fun as => ∀ a ∈ as, P a := by
  rw [Outline.toList.eq_def]
  split
  · exact yields_bind (yields_mapM fun o hmem => hread o (allFinite_of_mem ho hmem)) fun as has =>
      yields_bind yields_true fun _ _ => yields_ok has
  · exact yields_refuse

theorem yields_toMembers {o : Outline} (ho : AllFinite o.reals) :
    Yields (o.toMembers read) fun entries => ∀ x ∈ entries, P x.2 := by
  rw [Outline.toMembers.eq_def]
  split
  · refine yields_bind (yields_mapM fun m hm => ?_) fun as has =>
      yields_bind yields_true fun _ _ => yields_ok has
    exact yields_bind yields_true fun k _ =>
      yields_bind (hread m.2 (allFinite_of_mem_members ho hm)) fun a ha => yields_ok ha
  · exact yields_refuse

/-- What holds of everything read from finite numbers holds of what is read from a text. -/
theorem yields_decodeText (s : String) : Yields (decodeText read s) P :=
  yields_bind (hread _ (allFinite_readText s)) fun _ ha =>
    yields_bind yields_true fun _ _ => yields_ok ha

end Readers

/-- What a structure has at the start and keeps with every field it accepts, it has in the end. -/
theorem Form.yields_decode {form : Form α} {start : α} (hstart : P start)
    (haccept : ∀ a k o, P a → AllFinite o.reals → Yields (form.accept a k o) P) {o : Outline}
    (ho : AllFinite o.reals) : Yields (form.decode start o) P := by
  have hmember : ∀ m : Outline × Outline, AllFinite m.2.reals → ∀ state : List String × α,
      P state.2 → Yields (form.member state m.1 m.2) fun state => P state.2 := by
    intro m hm state hstate
    refine yields_bind yields_true fun k _ => ?_
    split_ifs
    · exact yields_error
    · exact yields_bind (haccept _ _ _ hstate hm) fun a ha => yields_ok ha
    · exact yields_error
    · exact yields_ok hstate
    · exact yields_error
  rw [decode.eq_def]
  split
  · refine yields_bind (yields_foldlM (P := fun state => P state.2) hstart fun m hm =>
      hmember m (allFinite_of_mem_members ho hm)) fun state hstate => ?_
    refine yields_bind yields_true fun _ _ => ?_
    split
    · exact yields_error
    · exact yields_ok hstate
  · refine yields_bind (yields_foldlM hstart fun m hm a ha => ?_) fun a ha => ?_
    · exact haccept _ _ _ ha (allFinite_of_mem ho (List.of_mem_zip hm).2)
    · refine yields_bind yields_true fun _ _ => ?_
      split_ifs
      · exact yields_error
      · exact yields_ok ha
  · exact yields_refuse

end Yields

end Switchover.Json
