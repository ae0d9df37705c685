import Mathlib
import Switchover.Proofs.Json.Written

/-!
Typed reading of what was written. Counts and identifiers read back always; a time reads back if
its number does, and then nothing stands in the way of holding it.
-/
namespace Switchover.Json

open Outline (finish)

/-! ### Results of reading -/

section Results
variable {ε α β : Type}

theorem ok_bind (a : α) (f : α → Except ε β) : .ok a >>= f = f a := rfl

theorem bind_eq_ok {x : Except ε α} {f : α → Except ε β} {b : β} :
    x >>= f = .ok b ↔ ∃ a, x = .ok a ∧ f a = .ok b := by
  cases x with
  | error e => exact ⟨nofun, by rintro ⟨a, ⟨⟩, _⟩⟩
  | ok a => exact ⟨fun h => ⟨a, rfl, h⟩, by rintro ⟨a, ⟨⟩, h⟩; exact h⟩

theorem map_eq_ok {x : Except ε α} {f : α → β} {b : β} :
    x.map f = .ok b ↔ ∃ a, x = .ok a ∧ f a = b := by
  cases x with
  | error e => exact ⟨nofun, by rintro ⟨a, ⟨⟩, _⟩⟩
  | ok a => exact ⟨fun h => ⟨a, rfl, Except.ok.inj h⟩, by rintro ⟨a, ⟨⟩, rfl⟩; rfl⟩

theorem eq_ok_of_toOption {x : Except ε α} {a : α} (h : x.toOption = some a) : x = .ok a := by
  cases x with
  | error e => cases h
  | ok b => exact congrArg Except.ok (Option.some.inj h)

theorem mapM_eq_ok {f : α → Except ε β} {l : List α} {m : List β} :
    l.mapM f = .ok m ↔ List.Forall₂ (fun a b => f a = .ok b) l m := by
  induction l generalizing m with
  | nil =>
    rw [List.mapM_nil, List.forall₂_nil_left_iff]
    exact ⟨fun h => (Except.ok.inj h).symm, fun h => congrArg Except.ok h.symm⟩
  | cons a l ih =>
    simp only [List.mapM_cons, bind_eq_ok, List.forall₂_cons_left_iff, ih]
    constructor
    · rintro ⟨b, hb, m', hm, h⟩
      exact ⟨b, m', hb, hm, (Except.ok.inj h).symm⟩
    · rintro ⟨b, m', hb, hm, rfl⟩
      exact ⟨b, hb, m', hm, rfl⟩

theorem finish_eq_ok {closed : Bool} {u : Unit} : finish closed = .ok u ↔ closed = true := by
  cases closed <;> simp [finish]

end Results

/-- A list reads back if every item does. -/
theorem toList_outline {α : Type} (write : α → Value) (read : Outline → Decoded α) (l : List α) :
    (Value.list (l.map write)).outline.toList read = .ok l ↔
      ∀ a ∈ l, read (write a).outline = .ok a := by
  have hmap : ((l.map write).map Value.outline).mapM read = .ok l ↔
      ∀ a ∈ l, read (write a).outline = .ok a := by
    rw [mapM_eq_ok, List.map_map, List.forall₂_map_left_iff, List.forall₂_same]
    rfl
  rw [← hmap, Value.outline, itemsOutline_eq_map, Outline.toList]
  simp only [bind_eq_ok, finish_eq_ok]
  constructor
  · rintro ⟨m, hm, _, -, h⟩
    rw [hm]
    exact h
  · intro h
    exact ⟨l, h, (), trivial, rfl⟩

/-- What is not `null` is read as present. -/
theorem toOptional_of_ne {α : Type} {read : Outline → Decoded α} {o : Outline} (h : o ≠ .null) :
    o.toOptional read = (read o).map some := by
  cases o with
  | null => exact absurd rfl h
  | _ => rfl

/-- A list of two is read as a pair if its items are read. -/
theorem toPair_outline {α β : Type} {first : Outline → Decoded α} {second : Outline → Decoded β}
    {v w : Value} {a : α} {b : β} (hfirst : first v.outline = .ok a)
    (hsecond : second w.outline = .ok b) :
    (Value.list [v, w]).outline.toPair first second = .ok (a, b) := by
  rw [Value.outline, itemsOutline_eq_map, List.map_cons, List.map_cons, Outline.toPair, hfirst]
  simp only [ok_bind, hsecond]
  rfl

/-- A table is read member by member, the keys as they were. -/
theorem toMembers_outline {α : Type} {read : Outline → Decoded α} {l : List (String × Value)}
    {m : List (String × α)} : (Value.table l).outline.toMembers read = .ok m ↔
      List.Forall₂ (fun x y => x.1 = y.1 ∧ read x.2.outline = .ok y.2) l m := by
  have hmember : ∀ (x : String × Value) (y : String × α),
      ((Outline.text (some x.1)).toKey.bind fun k => (read x.2.outline).bind fun v => .ok (k, v)) =
        .ok y ↔ x.1 = y.1 ∧ read x.2.outline = .ok y.2 := by
    intro x y
    change (read x.2.outline).bind (fun v => .ok (x.1, v)) = .ok y ↔ _
    cases read x.2.outline with
    | error e => exact ⟨nofun, nofun⟩
    | ok v => simp [Except.bind, Prod.ext_iff]
  have hmembers : ((l.map fun x => (Outline.text (some x.1), x.2.outline)).mapM fun x =>
      x.1.toKey.bind fun k => (read x.2).bind fun v => .ok (k, v)) = .ok m ↔
        List.Forall₂ (fun x y => x.1 = y.1 ∧ read x.2.outline = .ok y.2) l m := by
    rw [mapM_eq_ok, List.forall₂_map_left_iff]
    simp only [hmember]
  rw [← hmembers, Value.outline, membersOutline_eq_map, Outline.toMembers]
  simp only [bind_eq_ok, finish_eq_ok]
  constructor
  · rintro ⟨m, hm, _, -, h⟩
    exact hm.trans h
  · intro h
    exact ⟨m, h, (), trivial, rfl⟩

/-! ### Scalars -/

theorem toNat_natural {n bound : Nat} (h : n ≤ bound) (expected : String) :
    (Outline.number (some (.natural n))).toNat bound expected = .ok n := by
  rw [Outline.toNat, if_pos h]

theorem outline_word (n : UInt64) :
    (Value.word n).outline = .number (some (.natural n.toNat)) := by
  rw [Value.word, Value.outline, value_ofInt n.toNat_lt_size]

theorem toUInt64_word (n : UInt64) : (Value.word n).outline.toUInt64 = .ok n := by
  have hn := n.toNat_lt_size
  rw [outline_word, Outline.toUInt64, toNat_natural (by omega), Except.map, UInt64.ofNat_toNat]

theorem outline_toNat (n : UInt32) :
    (Value.int n.toNat).outline = .number (some (.natural n.toNat)) := by
  have hn := n.toNat_lt_size
  rw [Value.outline, value_ofInt (hn.trans (by decide))]

theorem toUInt32_int (n : UInt32) : (Value.int n.toNat).outline.toUInt32 = .ok n := by
  have hn := n.toNat_lt_size
  rw [outline_toNat, Outline.toUInt32, toNat_natural (by omega), Except.map, UInt32.ofNat_toNat]

theorem toBool_bool (b : Bool) : (Outline.bool b).toBool = .ok b := rfl

/-- Whether a number is written so that it reads back as itself. -/
def Respells (x : Float) : Prop :=
  decodeText Outline.toFloat (Value.real x).compact = .ok x

theorem respells_iff {x : Float} : Respells x ↔ (realOutline x).toFloat = .ok x := by
  rw [Respells, decodeText_compact, Value.outline]

theorem respells_of_value {x : Float} {n : Spelling}
    (hread : readSpelling (realLiteral x) = some (n, [])) (hvalue : n.value = some (.real x)) :
    Respells x := by
  rw [respells_iff, realOutline]
  cases hx : Decimal.Class.of x with
  | finite parts =>
    simp only [hread, Option.bind_some, hvalue]
    rfl
  | _ =>
    rw [realLiteral, hx] at hread
    cases hread

/-- What is read as a number can be held, however deep it stands. -/
theorem isHeld_of_toFloat {o : Outline} {x : Float} (h : o.toFloat = .ok x) (levels : Nat) :
    o.isHeld levels = true := by
  cases o with
  | number value =>
    cases value with
    | none => cases h
    | some n => rfl
  | text value => cases value <;> cases h
  | _ => cases h

/-! ### Structures -/

/-- Named values as the members of a table. -/
def keyed (members : List (String × Outline)) : List (Outline × Outline) :=
  members.map fun m => (.text (some m.1), m.2)

namespace Form

variable {α : Type} (form : Form α)

/-- Reads values into a structure in the order in which they are given. -/
def acceptAll (a : α) (members : List (String × Outline)) : Decoded α :=
  members.foldlM (fun a m => form.accept a m.1 m.2) a

theorem member_field {k : String} (hk : k ∈ form.fields) {seen : List String} (hseen : k ∉ seen)
    (a : α) (o : Outline) : form.member (seen, a) (.text (some k)) o =
      (form.accept a k o).map (k :: seen, ·) := by
  rw [member, Outline.toKey, ok_bind, if_pos hk, if_neg hseen]
  cases form.accept a k o <;> rfl

/-- Members that are fields and have not been seen yet are accepted one after the other. -/
theorem foldlM_member {members : List (String × Outline)}
    (hfields : ∀ m ∈ members, m.1 ∈ form.fields) (hnodup : (members.map Prod.fst).Nodup)
    {seen : List String} (hseen : ∀ m ∈ members, m.1 ∉ seen) (a : α) :
    (keyed members).foldlM (fun state m => form.member state m.1 m.2) (seen, a) =
      (form.acceptAll a members).map ((members.map Prod.fst).reverse ++ seen, ·) := by
  induction members generalizing seen a with
  | nil => rfl
  | cons m ms ih =>
    rw [List.map_cons] at hnodup
    obtain ⟨hm, hms⟩ := List.nodup_cons.mp hnodup
    obtain ⟨hfield, hfields⟩ := List.forall_mem_cons.mp hfields
    obtain ⟨hfresh, hseen⟩ := List.forall_mem_cons.mp hseen
    have hmember := form.member_field hfield hfresh a m.2
    have hmore : ∀ x ∈ ms, x.1 ∉ m.1 :: seen := by
      intro x hx
      rw [List.mem_cons, not_or]
      refine ⟨fun heq => hm ?_, hseen x hx⟩
      rw [← heq]
      exact List.mem_map_of_mem hx
    rw [keyed, List.map_cons, ← keyed, List.foldlM_cons, hmember, acceptAll, List.foldlM_cons]
    cases form.accept a m.1 m.2 with
    | error e => rfl
    | ok b =>
      simpa [Except.map, ok_bind, acceptAll] using ih hfields hms hmore b

/-- A table of all fields in their order is read by accepting them one after the other. -/
theorem decode_table {members : List (String × Outline)}
    (hkeys : members.map Prod.fst = form.fields) (hnodup : form.fields.Nodup) (a : α) :
    form.decode a (.table (keyed members) true) = form.acceptAll a members := by
  have hfields : ∀ m ∈ members, m.1 ∈ form.fields := by
    intro m hm
    rw [← hkeys]
    exact List.mem_map_of_mem hm
  have hfresh : ∀ m ∈ members, m.1 ∉ ([] : List String) := fun m _ => List.not_mem_nil
  have hfold := form.foldlM_member hfields (hkeys ▸ hnodup) hfresh a
  have hfind : (form.fields.take form.required).find?
      (fun field => field ∉ (members.map Prod.fst).reverse ++ []) = none := by
    refine List.find?_eq_none.mpr fun field hfield => ?_
    simpa [hkeys] using List.mem_of_mem_take hfield
  rw [decode, hfold]
  cases form.acceptAll a members with
  | error e => rfl
  | ok b =>
    simp only [Except.map, ok_bind, hfind, Outline.finish]
    rfl

end Form

end Switchover.Json
