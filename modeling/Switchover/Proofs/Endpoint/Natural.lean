import Mathlib
import Switchover.Proofs.Endpoint.Order
import Switchover.Proofs.Text.Bytes
import Switchover.Proofs.Text.Stretches

/-!
The natural order of names. A name that spells no address is read as tokens: a run of digits as far
as it goes is a number, whatever it may be, and every other character stands for itself. Two such
names compare token by token, and by their bytes if no token tells them apart. So names that end in
numbers behind a common front are in the order of the numbers.
-/
namespace Switchover

open Text (digitsValue byteOrder)

/-- Whether a text is made of some tokens. A number ends where no digit follows. -/
inductive IsTokens : List Char → List Token → Prop where
  | nil : IsTokens [] []
  | sign {c : Char} {s : List Char} {ts : List Token} (hc : ¬ c.isDigit = true)
      (hs : IsTokens s ts) : IsTokens (c :: s) (.sign c :: ts)
  | number {ds s : List Char} {ts : List Token} (hne : ds ≠ [])
      (hds : ∀ c ∈ ds, c.isDigit = true) (hend : ∀ c ∈ s.head?, ¬ c.isDigit = true)
      (hs : IsTokens s ts) : IsTokens (ds ++ s) (.number (digitsValue ds) :: ts)

/-- Whether tokens compare as numbers and characters do, a number being compared with a character
as any digit is. -/
structure ComparesTokens (cmp : Token → Token → Ordering) : Prop where
  numbers : ∀ m n, cmp (.number m) (.number n) = compare m n
  signs : ∀ c d, cmp (.sign c) (.sign d) = compare c.toNat d.toNat
  number_sign : ∀ n (c x : Char), ¬ c.isDigit = true → x.isDigit = true →
    cmp (.number n) (.sign c) = compare x.toNat c.toNat
  sign_number : ∀ n (c x : Char), ¬ c.isDigit = true → x.isDigit = true →
    cmp (.sign c) (.number n) = compare c.toNat x.toNat

/-! ### The tokens of a text -/

theorem IsTokens.tokens_eq {s : List Char} {ts : List Token} (h : IsTokens s ts) :
    tokens s = ts := by
  induction h with
  | nil => rw [tokens]
  | sign hc _ ih => rw [tokens_cons_sign _ hc, ih]
  | @number ds s ts hne hds hend _ ih =>
    obtain ⟨c, ds, rfl⟩ := List.exists_cons_of_ne_nil hne
    obtain ⟨hc, hrest⟩ := List.forall_mem_cons.mp hds
    have hend : ∀ d ∈ s.head?, d.isDigit = false := fun d hd => Bool.eq_false_iff.mpr (hend d hd)
    rw [List.cons_append, tokens_cons_digit _ hc, Text.takeWhile_stretch hrest hend,
      Text.dropWhile_stretch hrest hend, ih]

theorem isTokens_tokens (s : List Char) : IsTokens s (tokens s) := by
  fun_induction tokens s with
  | case1 => exact .nil
  | case2 c s hc ih =>
    have hsplit : c :: s = (c :: s.takeWhile Char.isDigit) ++ s.dropWhile Char.isDigit := by
      rw [List.cons_append, List.takeWhile_append_dropWhile]
    have hend : ∀ d ∈ (s.dropWhile Char.isDigit).head?, ¬ d.isDigit = true := by
      intro d hd
      have hnot := List.head?_dropWhile_not Char.isDigit s
      rw [Option.mem_def.mp hd] at hnot
      simpa using hnot
    have htokens := IsTokens.number (List.cons_ne_nil _ _) (all_digits_cons_takeWhile s hc) hend ih
    rwa [← hsplit] at htokens
  | case3 c s hc ih => exact .sign hc ih

/-- A text is made of its tokens and of no others. -/
theorem isTokens_iff {s : List Char} {ts : List Token} : IsTokens s ts ↔ ts = tokens s :=
  ⟨fun h => h.tokens_eq.symm, fun h => h ▸ isTokens_tokens s⟩

/-- Digits behind a text that does not end in one are a token of their own. -/
theorem IsTokens.append_digits {s ds : List Char} {ts : List Token} (h : IsTokens s ts)
    (hlast : ∀ c ∈ s.getLast?, ¬ c.isDigit = true) (hne : ds ≠ [])
    (hds : ∀ c ∈ ds, c.isDigit = true) :
    IsTokens (s ++ ds) (ts ++ [.number (digitsValue ds)]) := by
  have hown : IsTokens ds [.number (digitsValue ds)] := by
    simpa using IsTokens.number hne hds (s := []) nofun .nil
  induction h with
  | nil => exact hown
  | @sign c s ts hc _ ih =>
    refine .sign hc (ih fun d hd => hlast d ?_)
    rw [List.getLast?_cons, Option.mem_def.mp hd]
    rfl
  | @number front s ts hfront hdigits hend _ ih =>
    -- the text goes on behind the digits in front, as it does not end in one
    have hs : s ≠ [] := by
      rintro rfl
      rw [List.append_nil] at hlast
      obtain ⟨c, hc⟩ := List.getLast?_isSome.mpr hfront |> Option.isSome_iff_exists.mp
      exact hlast c hc (hdigits c (List.mem_of_getLast? hc))
    rw [List.append_assoc, List.cons_append]
    refine .number hfront hdigits ?_ (ih fun d hd => hlast d ?_)
    · rwa [List.head?_append_of_ne_nil _ hs]
    · rwa [List.getLast?_append_of_ne_nil _ hs]

/-! ### Comparing tokens -/

/-- All digits are on one side of any other character. -/
theorem place_lt_or_gt {c : Char} (hc : ¬ c.isDigit = true) (n : Nat) :
    (Token.sign c).place < (Token.number n).place ∧ c.toNat < 48 ∨
      (Token.number n).place < (Token.sign c).place ∧ 57 < c.toNat := by
  rw [isDigit_iff] at hc
  change c.toNat < 48 ∧ _ ∨ 48 < c.toNat ∧ _
  omega

theorem comparesTokens_order : ComparesTokens Token.order where
  numbers := Token.order_number
  signs c d := by
    rw [Token.order, compareLex, compareOn, compareOn]
    change (compare c.toNat d.toNat).then (compare 0 0) = _
    rw [Nat.compare_eq_eq.mpr rfl, Ordering.then_eq]
  number_sign n c x hc hx := by
    have hx := isDigit_iff.mp hx
    rcases place_lt_or_gt hc n with ⟨hplace, hlt⟩ | ⟨hplace, hgt⟩
    · rw [Token.order_of_place_gt hplace, Nat.compare_eq_gt.mpr (by omega)]
    · rw [Token.order_of_place_lt hplace, Nat.compare_eq_lt.mpr (by omega)]
  sign_number n c x hc hx := by
    have hx := isDigit_iff.mp hx
    rcases place_lt_or_gt hc n with ⟨hplace, hlt⟩ | ⟨hplace, hgt⟩
    · rw [Token.order_of_place_lt hplace, Nat.compare_eq_lt.mpr (by omega)]
    · rw [Token.order_of_place_gt hplace, Nat.compare_eq_gt.mpr (by omega)]

namespace Endpoint
variable {a b : Endpoint}

theorem order_of_names (ha : a.address? = none) (hb : b.address? = none) :
    a.order b = (List.compareLex Token.order (tokens a.name.toList) (tokens b.name.toList)).then
      (byteOrder a.name b.name) := by
  rw [order, ha, hb, Text.byteOrder_eq]
  dsimp only
  rw [compareNatural_eq]

/-- Names with one front are in the order of the numbers they end in, zeros in front of these or
not. -/
theorem order_of_numbers {front ds es : List Char}
    (hfront : ∀ c ∈ front.getLast?, ¬ c.isDigit = true)
    (hds : ds ≠ [] ∧ ∀ c ∈ ds, c.isDigit = true) (hes : es ≠ [] ∧ ∀ c ∈ es, c.isDigit = true)
    (hlt : digitsValue ds < digitsValue es)
    (ha : a.address? = none) (hb : b.address? = none)
    (haname : a.name.toList = front ++ ds) (hbname : b.name.toList = front ++ es) :
    a.order b = .lt := by
  have htokens := ((isTokens_tokens front).append_digits hfront hds.1 hds.2).tokens_eq
  have htokens' := ((isTokens_tokens front).append_digits hfront hes.1 hes.2).tokens_eq
  rw [order_of_names ha hb, haname, hbname, htokens, htokens', Text.compareLex_append_left,
    List.compareLex_cons_cons, Token.order_number, Nat.compare_eq_lt.mpr hlt]
  rfl

theorem digitsValue_toDigits (n : Nat) : digitsValue (Nat.toDigits 10 n) = n :=
  Nat.ofDigitChars_ten_toDigits

/-- Names that spell no address compare by their tokens, and by their bytes if their tokens are the
same; so numbers behind one front count as numbers. -/
theorem order_by_tokens :
    (∀ s ts, IsTokens s ts ↔ ts = tokens s) ∧ ComparesTokens Token.order ∧
    (∀ a b : Endpoint, a.address? = none → b.address? = none →
      a.order b = (List.compareLex Token.order (tokens a.name.toList) (tokens b.name.toList)).then
        (byteOrder a.name b.name)) ∧
    ∀ (front : String) (m n : Nat), (∀ c ∈ front.toList.getLast?, ¬ c.isDigit = true) → m < n →
      address? ⟨front ++ toString m⟩ = none → address? ⟨front ++ toString n⟩ = none →
      order ⟨front ++ toString m⟩ ⟨front ++ toString n⟩ = .lt := by
  refine ⟨fun s ts => isTokens_iff, comparesTokens_order, fun a b => order_of_names,
    fun front m n hfront hlt hm hn => ?_⟩
  have hdigits : ∀ k : Nat, Nat.toDigits 10 k ≠ [] ∧ ∀ c ∈ Nat.toDigits 10 k, c.isDigit = true := by
    refine fun k => ⟨Nat.toDigits_ne_nil, fun c hc => ?_⟩
    exact Nat.isDigit_of_mem_toDigits (by decide) (by decide) hc
  have hname : ∀ k : Nat, (front ++ toString k).toList = front.toList ++ Nat.toDigits 10 k := by
    intro k
    rw [String.toList_append]
    exact congrArg _ Nat.toList_repr
  refine order_of_numbers hfront (hdigits m) (hdigits n) ?_ hm hn (hname m) (hname n)
  rwa [digitsValue_toDigits, digitsValue_toDigits]

/-- Zeros in front of a number tell names apart only by their bytes, and a number is not compared by
its digits. -/
theorem order_by_tokens_zeros :
    (address? ⟨"node007x"⟩ = none ∧ address? ⟨"node7x"⟩ = none ∧
      order ⟨"node007x"⟩ ⟨"node7x"⟩ = (List.compareLex Token.order
        (tokens "node007x".toList) (tokens "node7x".toList)).then
        (byteOrder "node007x" "node7x")) ∧
    (∀ c ∈ "server".toList.getLast?, ¬ c.isDigit = true) ∧ 2 < 10 ∧
      address? ⟨"server" ++ toString 2⟩ = none ∧ address? ⟨"server" ++ toString 10⟩ = none ∧
      order ⟨"server" ++ toString 2⟩ ⟨"server" ++ toString 10⟩ = .lt := by
  have ha : address? ⟨"node007x"⟩ = none := by cbv
  have hb : address? ⟨"node7x"⟩ = none := by cbv
  have hlast : "server".toList.getLast? = some 'r' := by cbv
  have hfront : ∀ c ∈ "server".toList.getLast?, ¬ c.isDigit = true := fun c hc => by
    obtain rfl := Option.some.inj (hlast.symm.trans hc)
    decide
  have hm : address? ⟨"server" ++ toString 2⟩ = none := by cbv
  have hn : address? ⟨"server" ++ toString 10⟩ = none := by cbv
  exact ⟨⟨ha, hb, order_by_tokens.2.2.1 _ _ ha hb⟩, hfront, by decide, hm, hn,
    order_by_tokens.2.2.2 _ _ _ hfront (by decide) hm hn⟩

end Endpoint

end Switchover
