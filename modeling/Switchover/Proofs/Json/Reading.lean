import Mathlib
import Switchover.Proofs.Json.Numeral

/-!
Texts and what they are read as. A text spells an outline if it is made of the outline's tokens with
any blanks between them, and every such text is read as the outline, up to the character behind it.
A string is written with escapes, each of which is read as one character again.
-/
namespace Switchover.Json

/-! ### Strings -/

/-- Whether a piece stands for a character. -/
def Piece.Shows (p : Piece) (c : Char) : Prop :=
  ∀ ps, joinPieces (p :: ps) = (joinPieces ps).map (c :: ·)

theorem shows_char (c : Char) : (Piece.char c).Shows c := fun _ => rfl

/-- A control character is a unit of its own. -/
theorem shows_unit {c : Char} (hc : c.toNat < 0x20) : (Piece.unit c.toNat).Shows c := by
  intro ps
  have hhigh : isHigh c.toNat = false := by simp [isHigh]; omega
  have hlow : isLow c.toNat = false := by simp [isLow]; omega
  rw [joinPieces.eq_def]
  simp [hhigh, hlow]

theorem controlDigits_eq : ∀ n < 0x20, ∃ a b c d, controlDigits n = [a, b, c, d] ∧
    unit? a b c d = some n := by
  intro n hn
  interval_cases n <;> exact ⟨_, _, _, _, rfl, rfl⟩

theorem readPieces_short {e c : Char} (h : escape? e = some c) (s : List Char) :
    readPieces ('\\' :: e :: s) = (readPieces s).bind fun x => some (.char c :: x.1, x.2) := by
  rw [readPieces]
  · simp [h]
  · rintro a b c d s rfl
    cases h

theorem readPieces_plain {c : Char} (hquote : c ≠ '"') (hslash : c ≠ '\\') (hc : ¬ c.toNat < 0x20)
    (s : List Char) :
    readPieces (c :: s) = (readPieces s).bind fun x => some (.char c :: x.1, x.2) := by
  rw [readPieces]
  · simp [hc, hslash]
  · exact fun h => hquote h
  · exact fun _ _ _ _ _ h => absurd h hslash
  · exact fun _ _ h => absurd h hslash

/-- The escape of a character is read as one piece. -/
theorem readPieces_escapedChar (c : Char) (s : List Char) : ∃ p : Piece, p.Shows c ∧
    readPieces (escapedChar c ++ s) = (readPieces s).bind fun x => some (p :: x.1, x.2) := by
  rw [escapedChar]
  split_ifs with hquote hslash hb hf hn hr ht hcontrol
  · exact ⟨_, shows_char c, readPieces_short (by rw [hquote]; rfl) s⟩
  · exact ⟨_, shows_char c, readPieces_short (by rw [hslash]; rfl) s⟩
  · exact ⟨_, shows_char c, readPieces_short (by rw [hb]; rfl) s⟩
  · exact ⟨_, shows_char c, readPieces_short (by rw [hf]; rfl) s⟩
  · exact ⟨_, shows_char c, readPieces_short (by rw [hn]; rfl) s⟩
  · exact ⟨_, shows_char c, readPieces_short (by rw [hr]; rfl) s⟩
  · exact ⟨_, shows_char c, readPieces_short (by rw [ht]; rfl) s⟩
  · obtain ⟨a, b, d, e, hdigits, hunit⟩ := controlDigits_eq c.toNat hcontrol
    refine ⟨_, shows_unit hcontrol, ?_⟩
    rw [hdigits]
    simp [readPieces, hunit]
  · exact ⟨_, shows_char c, readPieces_plain hquote hslash hcontrol s⟩

theorem readPieces_flatMap (cs rest : List Char) : ∃ ps,
    readPieces (cs.flatMap escapedChar ++ '"' :: rest) = some (ps, rest) ∧
      joinPieces ps = some cs := by
  induction cs with
  | nil => exact ⟨[], rfl, rfl⟩
  | cons c cs ih =>
    obtain ⟨ps, hread, hjoin⟩ := ih
    obtain ⟨p, hp, hpieces⟩ := readPieces_escapedChar c (cs.flatMap escapedChar ++ '"' :: rest)
    refine ⟨p :: ps, ?_, by rw [hp, hjoin]; rfl⟩
    rw [List.flatMap_cons, List.append_assoc, hpieces, hread]
    rfl

/-- A string is read as it was, up to its closing quote. -/
theorem readString_text (s : String) (rest : List Char) :
    readString (s.toList.flatMap escapedChar ++ '"' :: rest) = some (some s, rest) := by
  obtain ⟨ps, hread, hjoin⟩ := readPieces_flatMap s.toList rest
  simp [readString, hread, hjoin]

/-! ### Texts of an outline -/

/-- Whether some characters are blanks between tokens. -/
def Blank (gap : List Char) : Prop :=
  ∀ c ∈ gap, isSpace c = true

mutual

/-- Whether a text spells an outline, with any blanks between its tokens. -/
inductive Spells : Outline → List Char → Prop where
  | null : Spells .null "null".toList
  | bool (b : Bool) : Spells (.bool b) (if b then "true" else "false").toList
  | number {n : Spelling} (hn : n.IsProper) : Spells (.number n.value) n.chars
  | text (s : String) : Spells (.text (some s)) (textLiteral s)
  | emptyList {gap : List Char} (hgap : Blank gap) : Spells (.list [] true) ('[' :: gap ++ [']'])
  | list {items : List Outline} {cs : List Char} (h : SpellsItems items cs) :
      Spells (.list items true) ('[' :: cs ++ [']'])
  | emptyTable {gap : List Char} (hgap : Blank gap) :
      Spells (.table [] true) ('{' :: gap ++ ['}'])
  | table {members : List (Outline × Outline)} {cs : List Char} (h : SpellsMembers members cs) :
      Spells (.table members true) ('{' :: cs ++ ['}'])

/-- Whether a text spells the items of a list. -/
inductive SpellsItems : List Outline → List Char → Prop where
  | last {o : Outline} {before cs behind : List Char} (hbefore : Blank before) (h : Spells o cs)
      (hbehind : Blank behind) : SpellsItems [o] (before ++ (cs ++ behind))
  | cons {o : Outline} {os : List Outline} {before cs behind more : List Char}
      (hbefore : Blank before) (h : Spells o cs) (hbehind : Blank behind)
      (hmore : SpellsItems os more) :
      SpellsItems (o :: os) (before ++ (cs ++ (behind ++ ',' :: more)))

/-- Whether a text spells the members of a table. -/
inductive SpellsMembers : List (Outline × Outline) → List Char → Prop where
  | last {k : String} {o : Outline} {before between cs behind : List Char}
      (hbefore : Blank before) (hbetween : Blank between) (h : Spells o cs)
      (hbehind : Blank behind) : SpellsMembers [(.text (some k), o)]
        (before ++ (textLiteral k ++ ':' :: (between ++ (cs ++ behind))))
  | cons {k : String} {o : Outline} {ms : List (Outline × Outline)}
      {before between cs behind more : List Char} (hbefore : Blank before)
      (hbetween : Blank between) (h : Spells o cs) (hbehind : Blank behind)
      (hmore : SpellsMembers ms more) : SpellsMembers ((.text (some k), o) :: ms)
        (before ++ (textLiteral k ++ ':' :: (between ++ (cs ++ (behind ++ ',' :: more)))))

end

/-! ### Blanks -/

section Blanks
variable {gap : List Char} (hgap : Blank gap)
include hgap

theorem skipSpace_append (s : List Char) : skipSpace (gap ++ s) = skipSpace s :=
  List.dropWhile_append_of_pos hgap

theorem stops_append {s : List Char} (hs : Stops s) : Stops (gap ++ s) := by
  cases gap with
  | nil => exact hs
  | cons d gap =>
    rintro c ⟨⟩
    have hspace := hgap d (List.mem_cons_self ..)
    simp only [isSpace, Bool.or_eq_true, beq_iff_eq] at hspace
    obtain ((rfl | rfl) | rfl) | rfl := hspace <;> decide

end Blanks

theorem skipSpace_cons {c : Char} (hc : isSpace c = false) (s : List Char) :
    skipSpace (c :: s) = c :: s :=
  List.dropWhile_cons_of_neg (by simp [hc])

theorem skipSpace_skipSpace (s : List Char) : skipSpace (skipSpace s) = skipSpace s :=
  List.dropWhile_idempotent isSpace s

theorem readValue_skipSpace (fuel : Nat) (s : List Char) :
    readValue fuel (skipSpace s) = readValue fuel s := by
  cases fuel with
  | zero => rfl
  | succ fuel => simp only [readValue, skipSpace_skipSpace]

theorem readItems_skipSpace (fuel : Nat) (s : List Char) :
    readItems fuel (skipSpace s) = readItems fuel s := by
  cases fuel with
  | zero => rfl
  | succ fuel => rw [readItems, readValue_skipSpace, ← readItems]

theorem readMembers_skipSpace (fuel : Nat) (s : List Char) :
    readMembers fuel (skipSpace s) = readMembers fuel s := by
  cases fuel with
  | zero => rfl
  | succ fuel => rw [readMembers, readValue_skipSpace, ← readMembers]

/-! ### First characters -/

theorem isSpace_of_isDigit {c : Char} (h : c.isDigit = true) : isSpace c = false := by
  by_contra hspace
  simp only [isSpace, Bool.not_eq_false, Bool.or_eq_true, beq_iff_eq] at hspace
  obtain ((rfl | rfl) | rfl) | rfl := hspace <;> cases h

theorem Spelling.IsProper.exists_head {n : Spelling} (hn : n.IsProper) :
    ∃ c r, n.chars = c :: r ∧ (c = '-' ∨ c.isDigit = true) := by
  obtain ⟨d, ds, hwhole, hdigit⟩ := hn.whole.exists_cons
  rw [Spelling.chars, hwhole]
  cases n.minus with
  | true => exact ⟨'-', _, rfl, .inl rfl⟩
  | false => exact ⟨d, _, rfl, .inr hdigit⟩

/-- What a value begins with: neither a blank nor a closing bracket. -/
theorem Spells.exists_head {o : Outline} {cs : List Char} (h : Spells o cs) :
    ∃ c r, cs = c :: r ∧ isSpace c = false ∧ c ≠ ']' ∧ c ≠ '}' := by
  cases h with
  | null => exact ⟨'n', _, rfl, by decide⟩
  | bool b =>
    cases b with
    | true => exact ⟨'t', _, rfl, by decide⟩
    | false => exact ⟨'f', _, rfl, by decide⟩
  | number hn =>
    obtain ⟨c, r, hcs, rfl | hc⟩ := hn.exists_head
    · exact ⟨'-', r, hcs, by decide⟩
    · refine ⟨c, r, hcs, isSpace_of_isDigit hc, ?_, ?_⟩ <;> rintro rfl <;> cases hc
  | text s => exact ⟨'"', _, rfl, by decide⟩
  | emptyList | list => exact ⟨'[', _, rfl, by decide⟩
  | emptyTable | table => exact ⟨'{', _, rfl, by decide⟩

theorem Spells.skipSpace_eq {o : Outline} {cs : List Char} (h : Spells o cs) (s : List Char) :
    skipSpace (cs ++ s) = cs ++ s := by
  obtain ⟨c, r, rfl, hspace, -, -⟩ := h.exists_head
  exact skipSpace_cons hspace (r ++ s)

theorem SpellsItems.skipSpace_ne {items : List Outline} {cs : List Char}
    (h : SpellsItems items cs) (s r : List Char) : skipSpace (cs ++ s) ≠ ']' :: r := by
  intro hskip
  cases h with
  | last hbefore h hbehind | cons hbefore h hbehind hmore =>
    rw [List.append_assoc, List.append_assoc, skipSpace_append hbefore, h.skipSpace_eq] at hskip
    obtain ⟨c, r, rfl, -, hc, -⟩ := h.exists_head
    exact hc (List.cons.inj hskip).1

theorem SpellsMembers.skipSpace_ne {members : List (Outline × Outline)} {cs : List Char}
    (h : SpellsMembers members cs) (s r : List Char) : skipSpace (cs ++ s) ≠ '}' :: r := by
  intro hskip
  cases h with
  | last hbefore hbetween h hbehind | cons hbefore hbetween h hbehind hmore =>
    rw [List.append_assoc, List.append_assoc, skipSpace_append hbefore,
      (Spells.text _).skipSpace_eq] at hskip
    cases hskip

/-! ### Reading a value by what it begins with -/

section Fronts
variable {fuel : Nat} {s rest : List Char}

theorem readValue_other {c : Char} (hspace : isSpace c = false)
    (hc : c ∉ ['n', 't', 'f', '"', '[', '{']) : readValue (fuel + 1) (c :: s) =
      match readSpelling (c :: s) with
      | some (n, r) => (.number n.value, some r)
      | none => (.broken, none) := by
  simp only [List.mem_cons, not_or] at hc
  rw [readValue, skipSpace_cons hspace]
  split
  case h_7 => rfl
  all_goals simp_all

theorem readValue_number {n : Spelling} (hn : n.IsProper) (hrest : Stops rest) :
    readValue (fuel + 1) (n.chars ++ rest) = (.number n.value, some rest) := by
  have hread := readSpelling_chars hn hrest
  obtain ⟨c, r, hcs, hc⟩ := hn.exists_head
  have hspace : isSpace c = false := by
    rcases hc with rfl | hc
    · decide
    · exact isSpace_of_isDigit hc
  have hother : c ∉ ['n', 't', 'f', '"', '[', '{'] := by
    rcases hc with rfl | hc
    · decide
    · intro hmem
      simp only [List.mem_cons, List.not_mem_nil, or_false] at hmem
      rcases hmem with rfl | rfl | rfl | rfl | rfl | rfl <;> cases hc
  rw [hcs, List.cons_append] at hread ⊢
  rw [readValue_other hspace hother, hread]

theorem readValue_text (t : String) :
    readValue (fuel + 1) (textLiteral t ++ s) = (.text (some t), some s) := by
  have htext : textLiteral t ++ s = '"' :: (t.toList.flatMap escapedChar ++ '"' :: s) := by
    simp [textLiteral]
  rw [htext, readValue, skipSpace_cons (by decide)]
  simp only [readString_text]

theorem readValue_list (hs : ∀ r, skipSpace s ≠ ']' :: r) :
    readValue (fuel + 1) ('[' :: s) =
      (.list (readItems fuel s).1 (readItems fuel s).2.isSome, (readItems fuel s).2) := by
  -- the hypothesis rules out the empty list
  rw [readValue, skipSpace_cons (by decide), ← readItems_skipSpace]
  simp only

theorem readValue_table (hs : ∀ r, skipSpace s ≠ '}' :: r) :
    readValue (fuel + 1) ('{' :: s) =
      (.table (readMembers fuel s).1 (readMembers fuel s).2.isSome, (readMembers fuel s).2) := by
  -- the hypothesis rules out the empty table
  rw [readValue, skipSpace_cons (by decide), ← readMembers_skipSpace]
  simp only

theorem readValue_emptyList {gap : List Char} (hgap : Blank gap) :
    readValue (fuel + 1) ('[' :: (gap ++ ']' :: s)) = (.list [] true, some s) := by
  rw [readValue, skipSpace_cons (by decide)]
  simp only [skipSpace_append hgap, skipSpace_cons (c := ']') (by decide)]

theorem readValue_emptyTable {gap : List Char} (hgap : Blank gap) :
    readValue (fuel + 1) ('{' :: (gap ++ '}' :: s)) = (.table [] true, some s) := by
  rw [readValue, skipSpace_cons (by decide)]
  simp only [skipSpace_append hgap, skipSpace_cons (c := '}') (by decide)]

end Fronts

/-! ### Reading what is spelled -/

theorem stops_comma (s : List Char) : Stops (',' :: s) := by
  rintro c ⟨⟩
  decide

theorem stops_bracket (s : List Char) : Stops (']' :: s) := by
  rintro c ⟨⟩
  decide

theorem stops_brace (s : List Char) : Stops ('}' :: s) := by
  rintro c ⟨⟩
  decide

mutual

/-- A value is read as it is spelled, up to where a number cannot go on. -/
theorem readValue_spells {o : Outline} {cs : List Char} (h : Spells o cs) (fuel : Nat)
    (hfuel : 2 * cs.length ≤ fuel) {rest : List Char} (hrest : Stops rest) :
    readValue fuel (cs ++ rest) = (o, some rest) := by
  obtain ⟨c, r, hcs, -, -, -⟩ := h.exists_head
  obtain ⟨fuel, rfl⟩ : ∃ k, fuel = k + 1 := by
    refine Nat.exists_eq_succ_of_ne_zero ?_
    rw [hcs, List.length_cons] at hfuel
    omega
  cases h with
  | null => rfl
  | bool b => cases b <;> rfl
  | number hn => exact readValue_number hn hrest
  | text s => exact readValue_text s
  | emptyList hgap => simpa using readValue_emptyList hgap
  | emptyTable hgap => simpa using readValue_emptyTable hgap
  | list hitems =>
    simp only [List.length_append, List.length_cons, List.length_nil] at hfuel
    have hread := readItems_spells hitems fuel (by omega) rest
    simp [readValue_list (hitems.skipSpace_ne _), hread]
  | table hmembers =>
    simp only [List.length_append, List.length_cons, List.length_nil] at hfuel
    have hread := readMembers_spells hmembers fuel (by omega) rest
    simp [readValue_table (hmembers.skipSpace_ne _), hread]

/-- Items are read as they are spelled, up to their closing bracket. -/
theorem readItems_spells {items : List Outline} {cs : List Char} (h : SpellsItems items cs)
    (fuel : Nat) (hfuel : 2 * cs.length < fuel) (rest : List Char) :
    readItems fuel (cs ++ ']' :: rest) = (items, some rest) := by
  obtain ⟨fuel, rfl⟩ : ∃ k, fuel = k + 1 := Nat.exists_eq_succ_of_ne_zero (by omega)
  cases h with
  | last hbefore h hbehind =>
    simp only [List.length_append] at hfuel
    have hread := readValue_spells h fuel (by omega)
      (stops_append hbehind (stops_bracket rest))
    rw [List.append_assoc, List.append_assoc, readItems, ← readValue_skipSpace,
      skipSpace_append hbefore, readValue_skipSpace, hread]
    simp only [skipSpace_append hbehind, skipSpace_cons (c := ']') (by decide)]
  | @cons _ _ _ _ behind more hbefore h hbehind hmore =>
    simp only [List.length_append, List.length_cons] at hfuel
    have hread := readValue_spells h fuel (by omega)
      (stops_append hbehind (stops_comma (more ++ ']' :: rest)))
    have hitems := readItems_spells hmore fuel (by omega) rest
    rw [List.append_assoc, List.append_assoc, List.append_assoc, List.cons_append, readItems,
      ← readValue_skipSpace, skipSpace_append hbefore, readValue_skipSpace, hread]
    simp only [skipSpace_append hbehind, skipSpace_cons (c := ',') (by decide), hitems]

/-- Members are read as they are spelled, up to their closing bracket. -/
theorem readMembers_spells {members : List (Outline × Outline)} {cs : List Char}
    (h : SpellsMembers members cs) (fuel : Nat) (hfuel : 2 * cs.length < fuel)
    (rest : List Char) : readMembers fuel (cs ++ '}' :: rest) = (members, some rest) := by
  obtain ⟨fuel, rfl⟩ : ∃ k, fuel = k + 1 := Nat.exists_eq_succ_of_ne_zero (by omega)
  cases h with
  | @last k _ _ _ _ _ hbefore hbetween h hbehind =>
    simp only [List.length_append, List.length_cons] at hfuel
    obtain ⟨fuel, rfl⟩ : ∃ k, fuel = k + 1 := Nat.exists_eq_succ_of_ne_zero (by omega)
    have hread := readValue_spells h (fuel + 1) (by omega)
      (stops_append hbehind (stops_brace rest))
    rw [← readValue_skipSpace, ← skipSpace_append hbetween, readValue_skipSpace] at hread
    rw [List.append_assoc, List.append_assoc, List.cons_append, List.append_assoc,
      List.append_assoc, readMembers, ← readValue_skipSpace, skipSpace_append hbefore,
      readValue_skipSpace, readValue_text]
    simp only [skipSpace_cons (c := ':') (by decide), hread, skipSpace_append hbehind,
      skipSpace_cons (c := '}') (by decide)]
  | @cons k _ _ _ _ _ _ more hbefore hbetween h hbehind hmore =>
    simp only [List.length_append, List.length_cons] at hfuel
    obtain ⟨fuel, rfl⟩ : ∃ k, fuel = k + 1 := Nat.exists_eq_succ_of_ne_zero (by omega)
    have hread := readValue_spells h (fuel + 1) (by omega)
      (stops_append hbehind (stops_comma (more ++ '}' :: rest)))
    have hmembers := readMembers_spells hmore (fuel + 1) (by omega) rest
    rw [← readValue_skipSpace, ← skipSpace_append hbetween, readValue_skipSpace] at hread
    rw [List.append_assoc, List.append_assoc, List.cons_append, List.append_assoc,
      List.append_assoc, List.append_assoc, List.cons_append, readMembers, ← readValue_skipSpace,
      skipSpace_append hbefore, readValue_skipSpace, readValue_text]
    simp only [skipSpace_cons (c := ':') (by decide), hread, skipSpace_append hbehind,
      skipSpace_cons (c := ',') (by decide), hmembers]

end

end Switchover.Json
