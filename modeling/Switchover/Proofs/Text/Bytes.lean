import Mathlib

/-!
Texts as bytes. In UTF-8 a character is a first byte, which grows with the number of bytes, and
bytes of six bits each. So of two characters the one with the greater code point has the greater
byte where they first differ, neither begins with the other, and texts compare by their bytes as
they do by their code points.
-/
namespace Switchover.Text

/-- The bytes of a text in UTF-8. -/
def bytes (s : String) : List UInt8 :=
  s.toUTF8.data.toList

/-- The order of texts by their bytes. A text that goes on where another ends is the greater. -/
def byteOrder (s t : String) : Ordering :=
  List.compareLex compare (bytes s) (bytes t)

theorem bytes_eq (s : String) : bytes s = s.toList.flatMap String.utf8EncodeChar := by
  rw [bytes, String.toUTF8, ← String.utf8Encode_toList, List.utf8Encode, List.data_toByteArray]

/-! ### Parts of a comparison -/

section Parts
variable {α : Type} {cmp : α → α → Ordering}

/-- Parts of one length are compared before what is behind them. -/
theorem compareLex_append {front front' : List α} (h : front.length = front'.length)
    (back back' : List α) : List.compareLex cmp (front ++ back) (front' ++ back') =
      (List.compareLex cmp front front').then (List.compareLex cmp back back') := by
  induction front generalizing front' with
  | nil =>
    obtain rfl := List.length_eq_zero_iff.mp h.symm
    rfl
  | cons x front ih =>
    cases front' with
    | nil => cases h
    | cons y front' =>
      rw [List.cons_append, List.cons_append, List.compareLex_cons_cons, List.compareLex_cons_cons,
        ih (Nat.succ.inj h), Ordering.then_assoc]

/-- What two lists begin with alike does not count. -/
theorem compareLex_append_left [Std.ReflCmp cmp] (front back back' : List α) :
    List.compareLex cmp (front ++ back) (front ++ back') = List.compareLex cmp back back' := by
  have hfront : List.compareLex cmp front front = .eq := Std.ReflCmp.compare_self
  rw [compareLex_append rfl, hfront]
  rfl

end Parts

/-! ### The bytes of one character -/

theorem compare_add (m n k : Nat) : compare (m + k) (n + k) = compare m n := by
  rw [Nat.compare_eq_ite_lt, Nat.compare_eq_ite_lt]
  simp only [Nat.add_lt_add_iff_right]

theorem compare_byte {m n : Nat} (hm : m < 256) (hn : n < 256) :
    compare (UInt8.ofNat m) (UInt8.ofNat n) = compare m n := by
  have hm' : (UInt8.ofNat m).toNat = m := UInt8.toNat_ofNat_of_lt' hm
  have hn' : (UInt8.ofNat n).toNat = n := UInt8.toNat_ofNat_of_lt' hn
  rcases lt_trichotomy m n with h | rfl | h
  · rw [Nat.compare_eq_lt.mpr h, Std.compare_eq_lt, UInt8.lt_iff_toNat_lt, hm', hn']
    exact h
  · rw [Nat.compare_eq_eq.mpr rfl, Std.compare_eq_iff_eq]
  · rw [Nat.compare_eq_gt.mpr h, Std.compare_eq_gt, UInt8.lt_iff_toNat_lt, hm', hn']
    exact h

/-- The last six bits decide after the others. -/
theorem compare_div_mod (m n : Nat) :
    (compare (m / 64) (n / 64)).then (compare (m % 64) (n % 64)) = compare m n := by
  rcases lt_trichotomy m n with h | rfl | h
  · rw [Nat.compare_eq_lt.mpr h, Ordering.then_eq_lt, Nat.compare_eq_lt, Nat.compare_eq_eq,
      Nat.compare_eq_lt]
    omega
  · rw [Nat.compare_eq_eq.mpr rfl, Nat.compare_eq_eq.mpr rfl, Nat.compare_eq_eq.mpr rfl]
    rfl
  · rw [Nat.compare_eq_gt.mpr h, Ordering.then_eq_gt, Nat.compare_eq_gt, Nat.compare_eq_eq,
      Nat.compare_eq_gt]
    omega

/-- A first byte with the greatest bits of a code point and a mark for the number of bytes. -/
def firstByte (width mark n : Nat) : List UInt8 :=
  [UInt8.ofNat (n % width + mark)]

/-- The bytes for all bits but the last six, and the byte for those. -/
def moreBits (front : List UInt8) (n : Nat) : List UInt8 :=
  front ++ [UInt8.ofNat (n % 64 + 128)]

/-- Whether two lists of one length compare as two numbers. -/
structure ComparesAs (s t : List UInt8) (m n : Nat) : Prop where
  length_eq : s.length = t.length
  compareLex_eq : List.compareLex compare s t = compare m n

theorem comparesAs_firstByte {m n width mark : Nat} (hm : m < width) (hn : n < width)
    (hfits : width + mark ≤ 256) :
    ComparesAs (firstByte width mark m) (firstByte width mark n) m n := by
  refine ⟨rfl, ?_⟩
  rw [firstByte, firstByte, Nat.mod_eq_of_lt hm, Nat.mod_eq_of_lt hn, List.compareLex_cons_cons,
    compare_byte (by omega) (by omega), compare_add, List.compareLex_nil_nil, Ordering.then_eq]

namespace ComparesAs
variable {front front' : List UInt8} {m n : Nat}

theorem moreBits (h : ComparesAs front front' (m / 64) (n / 64)) :
    ComparesAs (moreBits front m) (moreBits front' n) m n := by
  refine ⟨by simp [Text.moreBits, h.length_eq], ?_⟩
  rw [Text.moreBits, Text.moreBits, compareLex_append h.length_eq, h.compareLex_eq,
    List.compareLex_cons_cons, compare_byte (by omega) (by omega), compare_add,
    List.compareLex_nil_nil, Ordering.then_eq, compare_div_mod]

/-- Then what is behind them does not count, unless they are equal. -/
theorem lt (h : ComparesAs front front' m n) (hlt : m < n) (s t : List UInt8) :
    List.compareLex compare (front ++ s) (front' ++ t) = .lt := by
  rw [compareLex_append h.length_eq, h.compareLex_eq, Nat.compare_eq_lt.mpr hlt]
  rfl

end ComparesAs

/-- The bytes of a code point, by how many it takes. -/
theorem utf8EncodeChar_eq (c : Char) : String.utf8EncodeChar c =
    let n := c.val.toNat
    if n ≤ 127 then [UInt8.ofNat n]
    else if n ≤ 2047 then moreBits (firstByte 32 192 (n / 64)) n
    else if n ≤ 65535 then moreBits (moreBits (firstByte 16 224 (n / 64 / 64)) (n / 64)) n
    else moreBits (moreBits (moreBits (firstByte 8 240 (n / 64 / 64 / 64)) (n / 64 / 64))
      (n / 64)) n := by
  simp only [Nat.div_div_eq_div_mul]
  rfl

theorem toNat_val_lt (c : Char) : c.val.toNat < 0x110000 := by
  have := c.valid
  rw [UInt32.isValidChar, Nat.isValidChar] at this
  omega

/-- A first byte that is less decides. -/
theorem compareLex_of_first_lt {m n : Nat} (hn : n < 256) (h : m < n) (s t : List UInt8) :
    List.compareLex compare (UInt8.ofNat m :: s) (UInt8.ofNat n :: t) = .lt := by
  rw [List.compareLex_cons_cons, compare_byte (h.trans hn) hn, Nat.compare_eq_lt.mpr h]
  rfl

/-- The greater character has the greater bytes, whatever follows. -/
theorem compareLex_encode {c d : Char} (h : c < d) (s t : List UInt8) :
    List.compareLex compare (String.utf8EncodeChar c ++ s) (String.utf8EncodeChar d ++ t) =
      .lt := by
  have hc := toNat_val_lt c
  have hd := toNat_val_lt d
  have hlt : c.val.toNat < d.val.toNat := UInt32.lt_iff_toNat_lt.mp h
  rw [utf8EncodeChar_eq, utf8EncodeChar_eq]
  generalize c.val.toNat = m at *
  generalize d.val.toNat = n at *
  dsimp only
  split_ifs
  any_goals omega
  -- one byte and one, two, three or four
  · exact compareLex_of_first_lt (by omega) hlt _ _
  · exact compareLex_of_first_lt (by omega) (by omega) _ _
  · exact compareLex_of_first_lt (by omega) (by omega) _ _
  · exact compareLex_of_first_lt (by omega) (by omega) _ _
  -- two bytes and two, three or four
  · refine ComparesAs.lt (.moreBits ?_) hlt s t
    exact comparesAs_firstByte (by omega) (by omega) (by decide)
  · exact compareLex_of_first_lt (by omega) (by omega) _ _
  · exact compareLex_of_first_lt (by omega) (by omega) _ _
  -- three bytes and three or four
  · refine ComparesAs.lt (.moreBits (.moreBits ?_)) hlt s t
    exact comparesAs_firstByte (by omega) (by omega) (by decide)
  · exact compareLex_of_first_lt (by omega) (by omega) _ _
  -- four bytes each
  · refine ComparesAs.lt (.moreBits (.moreBits (.moreBits ?_))) hlt s t
    exact comparesAs_firstByte (by omega) (by omega) (by decide)

/-! ### The bytes of a text -/

theorem compareLex_flatMap_encode {s t : List Char} (h : s < t) :
    List.compareLex compare (s.flatMap String.utf8EncodeChar) (t.flatMap String.utf8EncodeChar) =
      .lt := by
  induction s generalizing t with
  | nil =>
    cases t with
    | nil => exact absurd h (List.lt_irrefl [])
    | cons d t =>
      obtain ⟨x, rest, hd⟩ := List.exists_cons_of_ne_nil (String.utf8EncodeChar_ne_nil (c := d))
      rw [List.flatMap_nil, List.flatMap_cons, hd, List.cons_append, List.compareLex_nil_cons]
  | cons c s ih =>
    cases t with
    | nil => exact absurd h (List.not_lt_nil _)
    | cons d t =>
      rw [List.flatMap_cons, List.flatMap_cons]
      rcases List.cons_lt_cons_iff.mp h with hlt | ⟨rfl, hlt⟩
      · exact compareLex_encode hlt _ _
      · rw [compareLex_append_left, ih hlt]

/-- Texts compare by their bytes as by their characters. -/
theorem byteOrder_eq (s t : String) : byteOrder s t = compareOfLessAndEq s.toList t.toList := by
  rw [byteOrder, bytes_eq, bytes_eq, compareOfLessAndEq]
  split_ifs with hlt heq
  · exact compareLex_flatMap_encode hlt
  · rw [heq]
    exact Std.ReflCmp.compare_self
  · have hgt : t.toList < s.toList :=
      (List.le_iff_lt_or_eq.mp (List.not_lt.mp hlt)).resolve_right (Ne.symm heq)
    exact Std.OrientedCmp.gt_of_lt (compareLex_flatMap_encode hgt)

end Switchover.Text
