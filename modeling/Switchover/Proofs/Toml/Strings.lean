import Mathlib
import Switchover.Proofs.Text.Stretches
import Switchover.Toml.Printer
import Switchover.Toml.Reader

/-!
Strings in TOML texts. Every text has a spelling, and each of its six forms is read as the text. In
a form on one line no quote of its own kind ends it early. In a form over several lines at most two
such quotes stand in a row, so that three of them are the end, and those directly before the end
belong to the text.
-/
namespace Switchover.Toml

/-! ### Characters between double quotes -/

theorem isPlainChar_of_not_needsEscape {c : Char} (h : needsEscape c = false) (hline : c ≠ '\n') :
    isPlainChar c = true := by
  by_cases htab : c = '\t'
  · rw [htab]
    rfl
  · have hcontrol : 0x20 ≤ c.toNat ∧ c.toNat ≠ 0x7F := by simpa [needsEscape, htab, hline] using h
    simp [isPlainChar, isCommentChar, hcontrol]

/-- The escapes by number are those of the control characters. -/
theorem scalar?_unitDigits : ∀ n < 128,
    (unitDigits n).length = 4 ∧ scalar? (unitDigits n) = some (Char.ofNat n) := by
  decide +kernel

theorem readEscape_unit {c : Char} (hc : needsEscape c = true) (s : List Char) :
    readEscape ('u' :: (unitDigits c.toNat ++ s)) = some (c, s) := by
  have hlt : c.toNat < 128 := by
    simp only [needsEscape, Bool.and_eq_true, Bool.or_eq_true, decide_eq_true_eq, beq_iff_eq] at hc
    omega
  obtain ⟨hlength, hscalar⟩ := scalar?_unitDigits c.toNat hlt
  rw [readEscape, if_neg (by simp [hlength]), List.take_left' hlength, List.drop_left' hlength,
    hscalar, Char.ofNat_toNat]
  rfl

/-- Behind a backslash, a letter is no line break. -/
theorem skipFolded_eq_none {c : Char} (h : isCommentChar c = true) (hspace : isSpace c = false)
    (s : List Char) : skipFolded (c :: s) = none := by
  have hline : c ≠ '\n' := by
    rintro rfl
    cases h
  have hreturn : c ≠ '\r' := by
    rintro rfl
    cases h
  have hskip : skipSpace (c :: s) = c :: s := by simp [skipSpace, hspace]
  rw [skipFolded, hskip]
  simp [newline?, hline, hreturn]

/-- Apart from quotes, a character is spelled by an escape that is no line break in disguise, is
a line break, or stands for itself. -/
theorem escapedChar_cases (long : Bool) (c : Char) :
    (∃ x, escapedChar long c = '\\' :: x ∧
      ∀ s, readEscape (x ++ s) = some (c, s) ∧ skipFolded (x ++ s) = none) ∨
    (long = true ∧ c = '\n' ∧ escapedChar long c = ['\n']) ∨
    (escapedChar long c = [c] ∧ isPlainChar c = true ∧ c ≠ '\\') := by
  rw [escapedChar]
  split_ifs with hslash hback htab hbreak hlong hfeed hreturn hescape
  · exact .inl ⟨['\\'], rfl, fun s => ⟨by rw [hslash]; rfl, skipFolded_eq_none rfl rfl s⟩⟩
  · exact .inl ⟨['b'], rfl, fun s => ⟨by rw [hback]; rfl, skipFolded_eq_none rfl rfl s⟩⟩
  · exact .inl ⟨['t'], rfl, fun s => ⟨by rw [htab]; rfl, skipFolded_eq_none rfl rfl s⟩⟩
  · exact .inr (.inl ⟨hlong, hbreak, rfl⟩)
  · exact .inl ⟨['n'], rfl, fun s => ⟨by rw [hbreak]; rfl, skipFolded_eq_none rfl rfl s⟩⟩
  · exact .inl ⟨['f'], rfl, fun s => ⟨by rw [hfeed]; rfl, skipFolded_eq_none rfl rfl s⟩⟩
  · exact .inl ⟨['r'], rfl, fun s => ⟨by rw [hreturn]; rfl, skipFolded_eq_none rfl rfl s⟩⟩
  · exact .inl ⟨'u' :: unitDigits c.toNat, rfl, fun s =>
      ⟨readEscape_unit hescape s, skipFolded_eq_none rfl rfl _⟩⟩
  · exact .inr (.inr ⟨rfl, isPlainChar_of_not_needsEscape (by simpa using hescape) hbreak, hslash⟩)

theorem escapedChars_cons {c : Char} (hc : c ≠ '"') (long : Bool) (run : Nat) (s : List Char) :
    escapedChars long run (c :: s) = escapedChar long c ++ escapedChars long 0 s := by
  rw [escapedChars]
  exact hc

theorem length_le_escapedChars (long : Bool) (run : Nat) (cs : List Char) :
    cs.length ≤ (escapedChars long run cs).length := by
  induction cs generalizing run with
  | nil => exact Nat.zero_le _
  | cons c cs ih =>
    by_cases hquote : c = '"'
    · subst hquote
      have hrest := ih 0
      have hnext := ih (run + 1)
      rw [escapedChars]
      split_ifs <;> simp only [List.length_cons, List.cons_append, List.nil_append] <;> omega
    · have hrest := ih 0
      rw [escapedChars_cons hquote, List.length_append, List.length_cons]
      rcases escapedChar_cases long c with ⟨x, hx, -⟩ | ⟨-, -, hx⟩ | ⟨hx, -, -⟩ <;>
        simp only [hx, List.length_cons, List.length_nil] <;> omega

/-- A spelling begins with a backslash or with the first character of the text. -/
theorem head?_escapedChars_cons (long : Bool) (run : Nat) (c : Char) (cs : List Char) :
    (escapedChars long run (c :: cs)).head? = some '\\' ∨
    (escapedChars long run (c :: cs)).head? = some c ∧ (c = '"' → long = true) ∧
      (c ≠ '\n' → isPlainChar c = true) := by
  by_cases hquote : c = '"'
  · subst hquote
    rw [escapedChars]
    split_ifs with hshort
    · exact .inr ⟨rfl, fun _ => (Bool.and_eq_true_iff.mp hshort).1, fun _ => rfl⟩
    · exact .inl rfl
  · rw [escapedChars_cons hquote]
    rcases escapedChar_cases long c with ⟨x, hx, -⟩ | ⟨-, rfl, hx⟩ | ⟨hx, hplain, -⟩
    · exact .inl (by rw [hx]; rfl)
    · exact .inr ⟨by rw [hx]; rfl, fun h => absurd h hquote, fun h => absurd rfl h⟩
    · exact .inr ⟨by rw [hx]; rfl, fun h => absurd h hquote, fun _ => hplain⟩

/-- What a spelling begins with is no line break if the text has none. -/
theorem isPlainChar_of_mem_head?_escapedChars {long : Bool} {run : Nat} {cs : List Char}
    (h : '\n' ∉ cs) : ∀ c ∈ (escapedChars long run cs).head?, isPlainChar c = true := by
  cases cs with
  | nil => simp [escapedChars]
  | cons c cs =>
    have hline : c ≠ '\n' := fun hc => h (hc ▸ List.mem_cons_self)
    rcases head?_escapedChars_cons long run c cs with hhead | ⟨hhead, -, hplain⟩
    · rw [hhead]
      rintro _ ⟨⟩
      rfl
    · rw [hhead]
      rintro _ ⟨⟩
      exact hplain hline

/-- On one line no spelling begins with a quote. -/
theorem head?_escapedChars_ne (cs : List Char) : (escapedChars false 0 cs).head? ≠ some '"' := by
  cases cs with
  | nil => simp [escapedChars]
  | cons c cs =>
    rcases head?_escapedChars_cons false 0 c cs with hhead | ⟨hhead, hquote, -⟩
    · rw [hhead]
      decide
    · rw [hhead]
      exact fun hc => Bool.noConfusion (hquote (Option.some.inj hc))

/-! ### Strings on one line -/

section OneLine

variable {fuel : Nat} {c : Char} {s r cs rest : List Char}

theorem readBasic_escape (h : readEscape s = some (c, r))
    (hr : readBasic fuel r = some (cs, rest)) :
    readBasic (fuel + 1) ('\\' :: s) = some (c :: cs, rest) := by
  simp [readBasic, h, hr]

theorem readBasic_plain (hplain : isPlainChar c = true) (hquote : c ≠ '"') (hslash : c ≠ '\\')
    (hs : readBasic fuel s = some (cs, rest)) :
    readBasic (fuel + 1) (c :: s) = some (c :: cs, rest) := by
  rw [readBasic, if_pos hplain, hs]
  · rfl
  · exact hquote
  · exact hslash

end OneLine

/-- A basic string is read back, whatever it spells. -/
theorem readBasic_escapedChars (cs rest : List Char) {fuel : Nat} (h : cs.length < fuel) :
    readBasic fuel (escapedChars false 0 cs ++ '"' :: rest) = some (cs, rest) := by
  induction cs generalizing fuel with
  | nil =>
    obtain ⟨fuel, rfl⟩ := Nat.exists_eq_add_of_le' h
    rfl
  | cons c cs ih =>
    obtain ⟨fuel, rfl⟩ := Nat.exists_eq_add_of_le' (Nat.zero_lt_of_lt h)
    have hrest := ih (Nat.lt_of_succ_lt_succ h)
    by_cases hquote : c = '"'
    · subst hquote
      exact readBasic_escape rfl hrest
    · rw [escapedChars_cons hquote, List.append_assoc]
      rcases escapedChar_cases false c with ⟨x, hx, hread⟩ | ⟨hlong, -⟩ | ⟨hself, hplain, hslash⟩
      · rw [hx]
        exact readBasic_escape (hread _).1 hrest
      · cases hlong
      · rw [hself]
        exact readBasic_plain hplain hquote hslash hrest

theorem readLiteral_append {cs rest : List Char} (h : ∀ c ∈ cs, isPlainChar c = true ∧ c ≠ '\'') :
    readLiteral (cs ++ '\'' :: rest) = some (cs, rest) := by
  induction cs with
  | nil => rfl
  | cons c cs ih =>
    obtain ⟨⟨hplain, hquote⟩, hcs⟩ := List.forall_mem_cons.mp h
    rw [List.cons_append, readLiteral, if_pos hplain, ih hcs]
    · rfl
    · exact hquote

/-! ### Strings over several lines -/

/-- Behind at most two quotes in a row, three more end the text if nothing else comes first. -/
theorem closing?_append {quote : Char} {body rest : List Char}
    (h : (body.takeWhile (· == quote)).length ≤ 2) (hrest : rest.head? ≠ some quote) :
    closing? quote (body ++ quote :: quote :: quote :: rest) =
      if body.all (· == quote) then some (body, rest) else none := by
  have hend : ∀ c ∈ rest.head?, (c == quote) = false := by
    intro c hc
    exact beq_eq_false_iff_ne.mpr fun heq => hrest (heq ▸ hc)
  cases hall : body.all (· == quote) with
  | true =>
    have hall := List.all_eq_true.mp hall
    have hbody : List.replicate body.length quote = body :=
      (List.eq_replicate_of_mem fun c hc => by simpa using hall c hc).symm
    have hrun : (body ++ quote :: quote :: quote :: rest).takeWhile (· == quote) =
        body ++ [quote, quote, quote] := by
      have hthree : ∀ c ∈ body ++ [quote, quote, quote], (c == quote) = true :=
        List.forall_mem_append.mpr ⟨hall, by simp⟩
      have hstretch := Text.takeWhile_stretch hthree hend
      rw [List.append_assoc] at hstretch
      exact hstretch
    have hshort : body.length ≤ 2 := by rwa [List.takeWhile_eq_self_iff.mpr hall] at h
    have hown : min (body.length + 3 - 3) 2 = body.length := by omega
    simp only [closing?, hrun, List.length_append, List.length_cons, List.length_nil]
    rw [if_neg (by omega), hown, hbody, ← List.drop_drop, List.drop_left]
    rfl
  | false =>
    have hne : (body.takeWhile (· == quote)).length ≠ body.length := by
      intro hlength
      have hself := (List.takeWhile_prefix _).eq_of_length hlength
      rw [List.all_eq_true.mpr (List.takeWhile_eq_self_iff.mp hself)] at hall
      cases hall
    simp only [closing?, List.takeWhile_append, if_neg hne]
    rw [if_pos (by omega)]
    rfl

theorem newline?_eq_none {s : List Char} (h : ∀ c ∈ s.head?, isPlainChar c = true) :
    newline? s = none := by
  cases s with
  | nil => rfl
  | cons c s =>
    have hc := h c rfl
    have hline : c ≠ '\n' := by
      rintro rfl
      cases hc
    have hreturn : c ≠ '\r' := by
      rintro rfl
      cases hc
    simp [newline?, hline, hreturn]

section ManyLines

variable {fuel : Nat} {c : Char} {s r cs rest : List Char}

theorem readLongBasic_closing (h : closing? '"' s = some (cs, rest)) :
    readLongBasic (fuel + 1) s = some (cs, rest) := by
  simp [readLongBasic, h]

theorem readLongBasic_escape (hfolded : skipFolded s = none) (h : readEscape s = some (c, r))
    (hr : readLongBasic fuel r = some (cs, rest)) :
    readLongBasic (fuel + 1) ('\\' :: s) = some (c :: cs, rest) := by
  have hclosing : closing? '"' ('\\' :: s) = none := rfl
  simp [readLongBasic, hclosing, hfolded, h, hr]

theorem readLongBasic_break (hs : readLongBasic fuel s = some (cs, rest)) :
    readLongBasic (fuel + 1) ('\n' :: s) = some ('\n' :: cs, rest) := by
  have hclosing : closing? '"' ('\n' :: s) = none := rfl
  simp [readLongBasic, hclosing, newline?, hs]

theorem readLongBasic_plain (hclosing : closing? '"' (c :: s) = none)
    (hplain : isPlainChar c = true) (hslash : c ≠ '\\')
    (hs : readLongBasic fuel s = some (cs, rest)) :
    readLongBasic (fuel + 1) (c :: s) = some (c :: cs, rest) := by
  have hline : newline? (c :: s) = none := newline?_eq_none (by simpa using hplain)
  simp [readLongBasic, hclosing, hline, hplain, hs]

theorem readLongLiteral_closing (h : closing? '\'' s = some (cs, rest)) :
    readLongLiteral (fuel + 1) s = some (cs, rest) := by
  simp [readLongLiteral, h]

theorem readLongLiteral_break (hs : readLongLiteral fuel s = some (cs, rest)) :
    readLongLiteral (fuel + 1) ('\n' :: s) = some ('\n' :: cs, rest) := by
  have hclosing : closing? '\'' ('\n' :: s) = none := rfl
  simp [readLongLiteral, hclosing, newline?, hs]

theorem readLongLiteral_plain (hclosing : closing? '\'' (c :: s) = none)
    (hplain : isPlainChar c = true) (hs : readLongLiteral fuel s = some (cs, rest)) :
    readLongLiteral (fuel + 1) (c :: s) = some (c :: cs, rest) := by
  have hline : newline? (c :: s) = none := newline?_eq_none (by simpa using hplain)
  simp [readLongLiteral, hclosing, hline, hplain, hs]

end ManyLines

theorem length_takeWhile_escapedChars (cs : List Char) {run : Nat} (hrun : run ≤ 2) :
    ((escapedChars true run cs).takeWhile (· == '"')).length + run ≤ 2 := by
  induction cs generalizing run with
  | nil => simpa [escapedChars] using hrun
  | cons c cs ih =>
    by_cases hquote : c = '"'
    · subst hquote
      rw [escapedChars]
      split_ifs with hshort
      · have hlt : run < 2 := by simpa using hshort
        have hnext : run + 1 ≤ 2 := hlt
        have hrest := ih hnext
        simp only [List.takeWhile_cons, beq_self_eq_true, if_true, List.length_cons]
        omega
      · simpa using hrun
    · rw [escapedChars_cons hquote]
      rcases escapedChar_cases true c with ⟨x, hx, -⟩ | ⟨-, -, hx⟩ | ⟨hx, -, -⟩
      · simpa [hx] using hrun
      · simpa [hx] using hrun
      · simpa [hx, hquote] using hrun

/-- A spelling with nothing but quotes has no escapes. -/
theorem escapedChars_eq_self (cs : List Char) {run : Nat}
    (h : (escapedChars true run cs).all (· == '"') = true) : escapedChars true run cs = cs := by
  induction cs generalizing run with
  | nil => rfl
  | cons c cs ih =>
    by_cases hquote : c = '"'
    · subst hquote
      rw [escapedChars] at h ⊢
      split_ifs at h ⊢ with hshort
      · rw [ih (by simpa using h)]
      · simp at h
    · rw [escapedChars_cons hquote] at h
      rcases escapedChar_cases true c with ⟨x, hx, -⟩ | ⟨-, -, hx⟩ | ⟨hx, -, -⟩
      · simp [hx] at h
      · simp [hx] at h
      · simp [hx, hquote] at h

/-- A basic string over several lines is read back, whatever it spells. -/
theorem readLongBasic_escapedChars (cs : List Char) {rest : List Char} {fuel run : Nat}
    (hfuel : cs.length < fuel) (hrun : run ≤ 2) (hrest : rest.head? ≠ some '"') :
    readLongBasic fuel (escapedChars true run cs ++ '"' :: '"' :: '"' :: rest) =
      some (cs, rest) := by
  have hclosing (cs : List Char) {run : Nat} (hrun : run ≤ 2) := closing?_append
    (Nat.le_of_add_right_le (length_takeWhile_escapedChars cs hrun)) hrest
  induction cs generalizing fuel run with
  | nil =>
    obtain ⟨fuel, rfl⟩ := Nat.exists_eq_add_of_le' hfuel
    exact readLongBasic_closing (hclosing [] hrun)
  | cons c cs ih =>
    obtain ⟨fuel, rfl⟩ := Nat.exists_eq_add_of_le' (Nat.zero_lt_of_lt hfuel)
    have hfuel : cs.length < fuel := Nat.lt_of_succ_lt_succ hfuel
    have hread {run : Nat} (hrun : run ≤ 2) := ih hfuel hrun
    have hclosing := hclosing (c :: cs) hrun
    split_ifs at hclosing with hall
    · -- only quotes are left: they stand for themselves, directly before the end
      rw [escapedChars_eq_self _ hall] at hclosing ⊢
      exact readLongBasic_closing hclosing
    · by_cases hquote : c = '"'
      · subst hquote
        rw [escapedChars] at hclosing ⊢
        split_ifs at hclosing ⊢ with hshort
        · have hlt : run < 2 := by simpa using hshort
          exact readLongBasic_plain hclosing rfl (by decide) (hread hlt)
        · exact readLongBasic_escape rfl rfl (hread (Nat.zero_le 2))
      · rw [escapedChars_cons hquote, List.append_assoc] at hclosing ⊢
        have hrest := hread (Nat.zero_le 2)
        rcases escapedChar_cases true c with ⟨x, hx, hescape⟩ | ⟨-, rfl, hx⟩ | ⟨hx, hplain, hslash⟩
        · rw [hx]
          exact readLongBasic_escape (hescape _).2 (hescape _).1 hrest
        · rw [hx]
          exact readLongBasic_break hrest
        · rw [hx] at hclosing ⊢
          exact readLongBasic_plain hclosing hplain hslash hrest

/-! ### Runs of quotes -/

/-- The longest run of a character so far, and the one that is going on, with one more character. -/
def countRun (c : Char) (n : Nat × Nat) (d : Char) : Nat × Nat :=
  if d = c then (max n.1 (n.2 + 1), n.2 + 1) else (n.1, 0)

/-- What goes on with the run so far, and each run behind it, is no longer than the longest. -/
theorem le_foldl_countRun (c : Char) (s : List Char) (n : Nat × Nat) (hn : n.2 ≤ n.1) :
    n.1 ≤ (s.foldl (countRun c) n).1 ∧
    n.2 + (s.takeWhile (· == c)).length ≤ (s.foldl (countRun c) n).1 ∧
    ∀ t, t <:+ s → (t.takeWhile (· == c)).length ≤ (s.foldl (countRun c) n).1 := by
  induction s generalizing n with
  | nil =>
    refine ⟨le_rfl, hn, fun t ht => ?_⟩
    rw [List.suffix_nil.mp ht]
    exact Nat.zero_le _
  | cons d s ih =>
    obtain ⟨hbest, hrun, hlater⟩ := ih (countRun c n d) (by rw [countRun]; split_ifs <;> simp)
    have hfirst : n.2 + ((d :: s).takeWhile (· == c)).length ≤
        ((d :: s).foldl (countRun c) n).1 := by
      rw [List.foldl_cons]
      by_cases hd : d = c
      · rw [List.takeWhile_cons_of_pos (by simpa using hd), List.length_cons]
        simp only [countRun, if_pos hd] at hrun ⊢
        omega
      · rw [List.takeWhile_cons_of_neg (by simpa using hd)]
        simp only [countRun, if_neg hd] at hbest ⊢
        exact hn.trans hbest
    refine ⟨le_trans ?_ hbest, hfirst, fun t ht => ?_⟩
    · rw [countRun]
      split_ifs <;> simp
    · rcases List.suffix_cons_iff.mp ht with rfl | ht
      · exact (Nat.le_add_left _ _).trans hfirst
      · exact hlater t ht

/-- No run is longer than the longest. -/
theorem length_takeWhile_le_longestRun {c : Char} {s t : List Char} (h : t <:+ s) :
    (t.takeWhile (· == c)).length ≤ longestRun c s :=
  (le_foldl_countRun c s (0, 0) le_rfl).2.2 t h

theorem notMem_of_longestRun_eq_zero {c : Char} {s : List Char} (h : longestRun c s = 0) :
    c ∉ s := by
  intro hc
  obtain ⟨front, back, rfl⟩ := List.append_of_mem hc
  have hrun := length_takeWhile_le_longestRun (c := c) (List.suffix_append front (c :: back))
  rw [h, List.takeWhile_cons_of_pos (by simp)] at hrun
  exact absurd hrun (by simp)

/-- A literal string over several lines is read back if it has no three quotes in a row. -/
theorem readLongLiteral_append {cs rest : List Char} {fuel : Nat} (hfuel : cs.length < fuel)
    (hplain : ∀ c ∈ cs, needsEscape c = false)
    (hruns : ∀ t, t <:+ cs → (t.takeWhile (· == '\'')).length ≤ 2)
    (hrest : rest.head? ≠ some '\'') :
    readLongLiteral fuel (cs ++ '\'' :: '\'' :: '\'' :: rest) = some (cs, rest) := by
  induction cs generalizing fuel with
  | nil =>
    obtain ⟨fuel, rfl⟩ := Nat.exists_eq_add_of_le' hfuel
    exact readLongLiteral_closing (closing?_append (hruns [] List.suffix_rfl) hrest)
  | cons c cs ih =>
    obtain ⟨fuel, rfl⟩ := Nat.exists_eq_add_of_le' (Nat.zero_lt_of_lt hfuel)
    obtain ⟨hc, hcs⟩ := List.forall_mem_cons.mp hplain
    have hfuel : cs.length < fuel := Nat.lt_of_succ_lt_succ hfuel
    have hread := ih hfuel hcs fun t ht => hruns t (ht.trans (List.suffix_cons c cs))
    have hclosing := closing?_append (hruns (c :: cs) List.suffix_rfl) hrest
    split_ifs at hclosing with hall
    · exact readLongLiteral_closing hclosing
    · by_cases hbreak : c = '\n'
      · subst hbreak
        exact readLongLiteral_break hread
      · exact readLongLiteral_plain hclosing (isPlainChar_of_not_needsEscape hc hbreak) hread

/-! ### All forms -/

/-- A text and a quote behind it do not begin with two quotes. -/
theorem append_quote_ne {quote : Char} {body rest : List Char} (hbody : body.head? ≠ some quote)
    (hrest : rest.head? ≠ some quote) (s : List Char) :
    body ++ quote :: rest ≠ quote :: quote :: s := by
  cases body with
  | nil => simpa using fun h : rest = quote :: s => hrest (h ▸ rfl)
  | cons c body => simpa using fun h : c = quote => absurd (h ▸ rfl) hbody

theorem skipFirstBreak_longForm {body rest : List Char} {quote : Char} {hasBreak : Bool}
    (hquote : isPlainChar quote = true)
    (hbody : hasBreak = false → ∀ c ∈ body.head?, isPlainChar c = true) :
    skipFirstBreak ((if hasBreak then ['\n'] else []) ++ (body ++ quote :: rest)) =
      body ++ quote :: rest := by
  cases hasBreak with
  | true => rfl
  | false =>
    have hhead : ∀ c ∈ (body ++ quote :: rest).head?, isPlainChar c = true := by
      cases body with
      | nil => simpa using hquote
      | cons c body => simpa using hbody rfl
    have hline := newline?_eq_none hhead
    simp [skipFirstBreak, hline]

section AllForms

variable {cs rest : List Char}

theorem readText_basic (cs : List Char) (hrest : rest.head? ≠ some '"') :
    readText ('"' :: (escapedChars false 0 cs ++ '"' :: rest)) =
      some (String.ofList cs, rest) := by
  have hfuel : cs.length < (escapedChars false 0 cs ++ '"' :: rest).length + 1 := by
    have hlength := length_le_escapedChars false 0 cs
    rw [List.length_append]
    omega
  rw [readText, readBasic_escapedChars cs rest hfuel]
  · rfl
  · exact append_quote_ne (head?_escapedChars_ne cs) hrest

theorem readText_literal (h : ∀ c ∈ cs, isPlainChar c = true ∧ c ≠ '\'')
    (hrest : rest.head? ≠ some '\'') :
    readText ('\'' :: (cs ++ '\'' :: rest)) = some (String.ofList cs, rest) := by
  have hhead : cs.head? ≠ some '\'' := fun hc => (h _ (List.mem_of_head? hc)).2 rfl
  rw [readText, readLiteral_append h]
  · rfl
  · exact append_quote_ne hhead hrest

theorem readText_longBasic (cs : List Char) (hrest : rest.head? ≠ some '"') :
    readText (longForm ['"', '"', '"'] (escapedChars true 0 cs) (cs.contains '\n') ++ rest) =
      some (String.ofList cs, rest) := by
  have hfuel : cs.length <
      (escapedChars true 0 cs ++ '"' :: '"' :: '"' :: rest).length + 1 := by
    have hlength := length_le_escapedChars true 0 cs
    rw [List.length_append]
    omega
  rw [longForm]
  simp only [List.append_assoc, List.cons_append, List.nil_append]
  rw [readText, skipFirstBreak_longForm rfl fun hnone =>
    isPlainChar_of_mem_head?_escapedChars (by simpa using hnone)]
  dsimp only
  rw [readLongBasic_escapedChars cs hfuel (Nat.zero_le 2) hrest]
  rfl

theorem readText_longLiteral (h : ∀ c ∈ cs, needsEscape c = false)
    (hruns : longestRun '\'' cs ≤ 2) (hrest : rest.head? ≠ some '\'') :
    readText (longForm ['\'', '\'', '\''] cs (cs.contains '\n') ++ rest) =
      some (String.ofList cs, rest) := by
  have hfuel : cs.length < (cs ++ '\'' :: '\'' :: '\'' :: rest).length + 1 := by
    rw [List.length_append]
    omega
  have hplain (hnone : cs.contains '\n' = false) : ∀ c ∈ cs.head?, isPlainChar c = true := by
    intro c hc
    have hmem := List.mem_of_head? hc
    refine isPlainChar_of_not_needsEscape (h c hmem) ?_
    rintro rfl
    simp [hmem] at hnone
  rw [longForm]
  simp only [List.append_assoc, List.cons_append, List.nil_append]
  rw [readText, skipFirstBreak_longForm rfl hplain]
  dsimp only
  rw [readLongLiteral_append hfuel h
    (fun t ht => (length_takeWhile_le_longestRun ht).trans hruns) hrest]
  rfl

end AllForms

/-- Every text is read back from the form that is chosen for it. -/
theorem readText_textLiteral (s : String) {rest : List Char} (hbasic : rest.head? ≠ some '"')
    (hliteral : rest.head? ≠ some '\'') :
    readText ((textLiteral s).toList ++ rest) = some (s, rest) := by
  have hescapes (h : s.toList.any needsEscape = false) : ∀ c ∈ s.toList, needsEscape c = false := by
    simpa using h
  have hself {found : Option (String × List Char)}
      (h : found = some (String.ofList s.toList, rest)) : found = some (s, rest) := by
    rwa [String.ofList_toList] at h
  have hline := hself (readText_basic s.toList hbasic)
  have hlong := hself (readText_longBasic s.toList hbasic)
  rw [textLiteral, String.toList_ofList]
  simp only [Bool.and_eq_true, Bool.not_eq_true', decide_eq_true_eq]
  split_ifs with hplain hsingle hdoubles hsingles hbreak
  · simpa using hline
  · obtain ⟨⟨hcontrol, hquotes⟩, hbreak⟩ := hsingle
    have hchars : ∀ c ∈ s.toList, isPlainChar c = true ∧ c ≠ '\'' := by
      intro c hc
      refine ⟨isPlainChar_of_not_needsEscape (hescapes hcontrol c hc) ?_, ?_⟩
      · rintro rfl
        simp [hc] at hbreak
      · rintro rfl
        exact notMem_of_longestRun_eq_zero hquotes hc
    simpa using hself (readText_literal hchars hliteral)
  · exact hlong
  · exact hself (readText_longLiteral (hescapes hsingles.1) hsingles.2 hliteral)
  · exact hlong
  · simpa using hline

end Switchover.Toml
