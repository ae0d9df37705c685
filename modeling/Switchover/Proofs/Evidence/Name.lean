import Mathlib
import Switchover.Evidence.Name
import Switchover.Proofs.Text.Stretches
import Switchover.Text.Blank

/-!
Which file a capture goes to. Of a test's name the file's name keeps the words and whether a word
comes first. The gaps between words, and the one before the fixed ending, are one underscore each,
so the result is one harmless component of a path, and what it keeps can be read off it again: two
tests share a file exactly if their names agree in what is kept.
-/
namespace Switchover.Evidence

open Text (isAlphanumeric isBlank)

/-- The words of a name: the nonempty stretches between the characters that belong to no word. -/
def words (s : List Char) : List (List Char) :=
  (s.splitOnP fun c => !isWordChar c).filter fun word => !word.isEmpty

/-- Whether a name begins with a character of a word. -/
def opensWithWord (s : List Char) : Bool :=
  s.head?.any isWordChar

/-- Whether a name begins with a character that belongs to no word. -/
def opensWithGap (s : List Char) : Bool :=
  s.head?.any fun c => !isWordChar c

/-- What stands before the underscores of a file's name: the words, and nothing before the first of
them where no word comes first. -/
def pieces (s : List Char) : List (List Char) :=
  if opensWithWord s then words s else [] :: words s

/-! ### Words -/

theorem ne_underscore {c : Char} (h : isWordChar c = true) : c ≠ '_' := by
  rintro rfl
  exact absurd h (by decide +kernel)

theorem words_nil : words [] = [] := by simp [words, List.splitOnP_nil]

theorem words_cons_gap {c : Char} (hc : isWordChar c = false) (s : List Char) :
    words (c :: s) = words s := by
  simp [words, List.splitOnP_cons_eq_if_modifyHead, hc]

/-- A character of a word goes into the first piece behind it. -/
theorem words_cons_word {c : Char} (hc : isWordChar c = true) (s : List Char) :
    words (c :: s) = (pieces s).modifyHead (c :: ·) := by
  cases s with
  | nil => simp [words, pieces, opensWithWord, List.splitOnP_cons_eq_if_modifyHead, hc]
  | cons d s =>
    obtain ⟨piece, rest, hsplit⟩ :=
      List.exists_cons_of_ne_nil (List.splitOnP_ne_nil (fun c => !isWordChar c) s)
    cases hd : isWordChar d <;>
      simp [words, pieces, opensWithWord, List.splitOnP_cons_eq_if_modifyHead, hc, hd, hsplit]

theorem nil_notMem_words (s : List Char) : [] ∉ words s := by simp [words]

theorem pieces_cons_gap {c : Char} (hc : isWordChar c = false) (s : List Char) :
    pieces (c :: s) = [] :: words s := by
  simp [pieces, opensWithWord, hc, words_cons_gap hc]

theorem pieces_cons_word {c : Char} (hc : isWordChar c = true) (s : List Char) :
    pieces (c :: s) = (pieces s).modifyHead (c :: ·) := by
  rw [← words_cons_word hc]
  simp [pieces, opensWithWord, hc]

theorem words_subset_pieces (s : List Char) : words s ⊆ pieces s := by
  rw [pieces]
  split_ifs
  · exact List.Subset.refl _
  · exact List.subset_cons_self _ _

theorem pieces_ne_nil (s : List Char) : pieces s ≠ [] := by
  induction s with
  | nil => simp [pieces, opensWithWord]
  | cons c s ih =>
    cases hc : isWordChar c with
    | false => simp [pieces_cons_gap hc]
    | true => simpa [pieces_cons_word hc] using ih

theorem isWordChar_of_mem_pieces {s piece : List Char} (h : piece ∈ pieces s) :
    ∀ c ∈ piece, isWordChar c = true := by
  induction s generalizing piece with
  | nil =>
    have hnil : piece = [] := by simpa [pieces, opensWithWord, words_nil] using h
    simp [hnil]
  | cons c s ih =>
    cases hc : isWordChar c with
    | false =>
      rw [pieces_cons_gap hc] at h
      rcases List.mem_cons.mp h with rfl | h
      · simp
      · exact ih (words_subset_pieces s h)
    | true =>
      obtain ⟨first, rest, hs⟩ := List.exists_cons_of_ne_nil (pieces_ne_nil s)
      rw [hs] at ih
      rw [pieces_cons_word hc, hs, List.modifyHead_cons] at h
      rcases List.mem_cons.mp h with rfl | h
      · exact List.forall_mem_cons.mpr ⟨hc, ih List.mem_cons_self⟩
      · exact ih (List.mem_cons_of_mem _ h)

/-- The words and whether one comes first are what the pieces say. -/
theorem pieces_eq_iff {s t : List Char} :
    pieces s = pieces t ↔ words s = words t ∧ opensWithWord s = opensWithWord t := by
  rw [pieces, pieces]
  constructor
  · intro h
    cases hs : opensWithWord s <;> cases ht : opensWithWord t <;>
      simp only [hs, ht, Bool.false_eq_true, if_true, if_false] at h
    · exact ⟨(List.cons.inj h).2, rfl⟩
    · exact absurd (h ▸ List.mem_cons_self) (nil_notMem_words t)
    · exact absurd (h ▸ List.mem_cons_self) (nil_notMem_words s)
    · exact ⟨h, rfl⟩
  · rintro ⟨hwords, hopens⟩
    rw [hwords, hopens]

/-! ### Underscores -/

theorem squeeze_cons (c : Char) (s : List Char) : squeeze (c :: s) =
    if c = '_' ∧ (squeeze s).head? = some '_' then squeeze s else c :: squeeze s :=
  rfl

/-- In front of a squeezed text stands some of what stood in front of it. -/
theorem squeeze_append (front s : List Char) :
    ∃ kept, List.Sublist kept front ∧ squeeze (front ++ s) = kept ++ squeeze s := by
  induction front with
  | nil => exact ⟨[], List.Sublist.refl _, rfl⟩
  | cons c front ih =>
    obtain ⟨kept, hkept, hs⟩ := ih
    rw [List.cons_append, squeeze_cons, hs]
    split_ifs
    · exact ⟨kept, hkept.cons _, rfl⟩
    · exact ⟨c :: kept, hkept.cons_cons _, rfl⟩

/-- No underscore follows another. -/
theorem isChain_squeeze (s : List Char) :
    (squeeze s).IsChain fun a b => ¬ (a = '_' ∧ b = '_') := by
  induction s with
  | nil => exact .nil
  | cons c s ih =>
    rw [squeeze_cons]
    split_ifs with hfuses
    · exact ih
    · refine List.isChain_cons.mpr ⟨fun d hd hboth => hfuses ⟨hboth.1, ?_⟩, ih⟩
      rw [← hboth.2]
      exact hd

theorem squeeze_single (s : List Char) : ¬ ['_', '_'] <:+: squeeze s := by
  rintro ⟨front, back, hs⟩
  have hchain := isChain_squeeze s
  rw [← hs] at hchain
  have hpair := (List.isChain_append.mp (List.isChain_append.mp hchain).1).2.1
  simp at hpair

/-! ### Pieces -/

/-- The pieces, each with its underscore. -/
def marked (ps : List (List Char)) : List Char :=
  ps.flatMap (· ++ ['_'])

theorem marked_modifyHead {ps : List (List Char)} (h : ps ≠ []) (c : Char) :
    marked (ps.modifyHead (c :: ·)) = c :: marked ps := by
  obtain ⟨first, rest, rfl⟩ := List.exists_cons_of_ne_nil h
  rfl

/-- An underscore is first exactly if no word is. -/
theorem head?_marked_pieces (s back : List Char) :
    (marked (pieces s) ++ back).head? = some '_' ↔ opensWithWord s = false := by
  cases s with
  | nil => simp [pieces, opensWithWord, marked]
  | cons c s =>
    cases hc : isWordChar c with
    | false => simp [pieces_cons_gap hc, marked, opensWithWord, hc]
    | true =>
      simp [pieces_cons_word hc, marked_modifyHead (pieces_ne_nil s), opensWithWord, hc,
        ne_underscore hc]

/-- Replacing and squeezing leave the pieces, each with its underscore. -/
theorem squeeze_masked (s : List Char) :
    squeeze (s.map maskedChar ++ ending) = marked (pieces s) ++ "dump.pcap".toList := by
  induction s with
  | nil => decide +kernel
  | cons c s ih =>
    cases hc : isWordChar c with
    | false =>
      have hmasked : maskedChar c = '_' := by simp [maskedChar, hc]
      rw [List.map_cons, hmasked, List.cons_append, squeeze_cons, ih, pieces_cons_gap hc]
      have hhead := head?_marked_pieces s "dump.pcap".toList
      -- the underscore goes if another gap follows, and is the one in front of a word otherwise
      cases hs : opensWithWord s with
      | false =>
        rw [if_pos ⟨rfl, hhead.mpr hs⟩, pieces, hs]
        rfl
      | true =>
        have hkeep : ¬ (marked (pieces s) ++ "dump.pcap".toList).head? = some '_' := by
          rw [hhead, hs]
          exact Bool.noConfusion
        rw [if_neg (hkeep ·.2), pieces, hs]
        rfl
    | true =>
      have hmasked : maskedChar c = c := by simp [maskedChar, hc]
      rw [List.map_cons, hmasked, List.cons_append, squeeze_cons, if_neg (ne_underscore hc ·.1), ih,
        pieces_cons_word hc, marked_modifyHead (pieces_ne_nil s)]
      rfl

/-- Pieces without underscores can be read off again. -/
theorem marked_inj {ps qs : List (List Char)} (hps : ∀ p ∈ ps, '_' ∉ p) (hqs : ∀ q ∈ qs, '_' ∉ q) :
    marked ps = marked qs ↔ ps = qs := by
  refine ⟨fun h => ?_, fun h => h ▸ rfl⟩
  induction ps generalizing qs with
  | nil =>
    cases qs with
    | nil => rfl
    | cons q qs => simp [marked] at h
  | cons p ps ih =>
    cases qs with
    | nil => simp [marked] at h
    | cons q qs =>
      rw [List.forall_mem_cons] at hps hqs
      simp only [marked, List.flatMap_cons, List.append_assoc, List.singleton_append] at h
      obtain ⟨rfl, hrest⟩ := (Text.append_separator_inj hps.1 hqs.1).mp h
      rw [ih hps.2 hqs.2 hrest]

theorem underscore_notMem_pieces {s : List Char} : ∀ piece ∈ pieces s, '_' ∉ piece :=
  fun _ hpiece hmem => ne_underscore (isWordChar_of_mem_pieces hpiece '_' hmem) rfl

/-- A file's name keeps the words of a test's name and whether one of them comes first. -/
theorem fileName_eq_iff {s t : String} : fileName s = fileName t ↔
    words s.toList = words t.toList ∧ opensWithWord s.toList = opensWithWord t.toList := by
  rw [fileName, fileName, String.ofList_inj, squeeze_masked, squeeze_masked,
    List.append_left_inj, marked_inj underscore_notMem_pieces underscore_notMem_pieces,
    pieces_eq_iff]

/-- Where there are words, a word comes first or a gap does. -/
theorem opensWithWord_eq_iff {s t : List Char} (h : words s = words t) :
    opensWithWord s = opensWithWord t ↔
      (words s ≠ [] → opensWithGap s = opensWithGap t) := by
  have hcons (c : Char) (s : List Char) : opensWithGap (c :: s) = !opensWithWord (c :: s) := rfl
  have hnil {s : List Char} (h : words s = []) : opensWithWord s = false := by
    cases s with
    | nil => rfl
    | cons c s =>
      by_contra hc
      have hword : isWordChar c = true := by simpa [opensWithWord] using hc
      rw [words_cons_word hword, List.modifyHead_eq_nil_iff] at h
      exact pieces_ne_nil s h
  by_cases hs : words s = []
  · simp [hs, hnil hs, hnil (h ▸ hs)]
  · have ht : words t ≠ [] := h ▸ hs
    obtain ⟨c, s, rfl⟩ := List.exists_cons_of_ne_nil fun h : s = [] => hs (h ▸ words_nil)
    obtain ⟨d, t, rfl⟩ := List.exists_cons_of_ne_nil fun h : t = [] => ht (h ▸ words_nil)
    simp [hs, hcons]

/-! ### Characters of a file's name -/

theorem isAlphanumeric_of_isBlank {c : Char} (h : isBlank c = true) : isAlphanumeric c = false := by
  have hall : ∀ n ∈ [9, 10, 11, 12, 13, 0x20, 0x85, 0xA0, 0x1680, 0x2000, 0x2001, 0x2002, 0x2003,
      0x2004, 0x2005, 0x2006, 0x2007, 0x2008, 0x2009, 0x200A, 0x2028, 0x2029, 0x202F, 0x205F,
      0x3000], isAlphanumeric (Char.ofNat n) = false := by decide +kernel
  rw [← Char.ofNat_toNat c]
  apply hall
  simp only [isBlank, Bool.or_eq_true, Bool.and_eq_true, decide_eq_true_eq, beq_iff_eq] at h
  simp only [List.mem_cons, List.not_mem_nil, or_false]
  omega

/-- Whether a character may stand in a file's name beside the dot of its ending. -/
def isHarmless (c : Char) : Bool :=
  isWordChar c || c == '_'

theorem isHarmless_iff {c : Char} :
    isHarmless c = true ↔ isAlphanumeric c = true ∨ c = '-' ∨ c = '_' := by
  simp [isHarmless, isWordChar, or_assoc]

theorem isHarmless_maskedChar (c : Char) : isHarmless (maskedChar c) = true := by
  rw [maskedChar]
  split_ifs with hword
  · simp [isHarmless, hword]
  · rfl

theorem isHarmless_of_isBlank {c : Char} (h : isBlank c = true) : isHarmless c = false := by
  rw [← Bool.not_eq_true, isHarmless_iff]
  rintro (hletter | rfl | rfl)
  · rw [isAlphanumeric_of_isBlank h] at hletter
    cases hletter
  · exact absurd h (by decide)
  · exact absurd h (by decide)

/-- A file's name has its ending, and otherwise what masking leaves of the test's name. -/
theorem fileName_eq_append (test : String) : ∃ front,
    (fileName test).toList = front ++ '.' :: "pcap".toList ∧ "_dump".toList <:+ front ∧
    ∀ c ∈ front ++ "pcap".toList, isHarmless c = true := by
  obtain ⟨kept, hkept, hs⟩ := squeeze_append (test.toList.map maskedChar) ending
  have hending : squeeze ending = "_dump".toList ++ '.' :: "pcap".toList := by decide
  refine ⟨kept ++ "_dump".toList, ?_, List.suffix_append _ _, ?_⟩
  · rw [fileName, String.toList_ofList, hs, hending, List.append_assoc]
  · have hfixed : ("_dump".toList ++ "pcap".toList).all isHarmless = true := by decide +kernel
    rw [List.append_assoc]
    refine List.forall_mem_append.mpr ⟨fun c hc => ?_, List.all_eq_true.mp hfixed⟩
    obtain ⟨d, -, rfl⟩ := List.mem_map.mp (hkept.mem hc)
    exact isHarmless_maskedChar d

/-- A text of harmless characters with one dot in it leads to no other directory. -/
theorem one_component {front back : List Char} (h : ∀ c ∈ front ++ back, isHarmless c = true) :
    '/' ∉ front ++ '.' :: back ∧ ¬ ['.', '.'] <:+: front ++ '.' :: back ∧
    ∀ c ∈ front ++ '.' :: back, isBlank c = false := by
  have hmem {c : Char} (hc : c ∈ front ++ '.' :: back) : c = '.' ∨ isHarmless c = true := by
    rcases List.mem_append.mp hc with hc | hc
    · exact .inr (h c (List.mem_append_left _ hc))
    · exact (List.mem_cons.mp hc).imp_right fun hc => h c (List.mem_append_right _ hc)
  refine ⟨fun hc => ?_, fun hinfix => ?_, fun c hc => ?_⟩
  · exact absurd (hmem hc) (by decide +kernel)
  · have hdot : '.' ∉ front ++ back := fun hc => absurd (h _ hc) (by decide +kernel)
    have hcount := hinfix.sublist.count_le '.'
    have hnone := List.count_eq_zero_of_not_mem hdot
    have htwo : List.count '.' ['.', '.'] = 2 := by decide
    rw [List.count_append] at hnone hcount
    rw [htwo, List.count_cons_self] at hcount
    omega
  · by_contra hblank
    rw [Bool.not_eq_false] at hblank
    rcases hmem hc with rfl | hharmless
    · exact absurd hblank (by decide)
    · rw [isHarmless_of_isBlank hblank] at hharmless
      cases hharmless

/-- The name of a test's capture is one harmless component of a path, and two tests share it only
if they must. It ends in `_dump.pcap`, and apart from the dot of that ending it has letters, digits,
hyphens and underscores, no two underscores in a row, so that nothing in it leads to another
directory. Two names of tests give the same one exactly if they have the same words in the same
order and, where they have words, both or neither begin with a gap. -/
theorem fileName_safe_and_shared_iff :
    (∀ test, ∃ front, (fileName test).toList = front ++ '.' :: "pcap".toList ∧
      "_dump".toList <:+ front ∧
      (∀ c ∈ front ++ "pcap".toList, isAlphanumeric c = true ∨ c = '-' ∨ c = '_') ∧
      '/' ∉ (fileName test).toList ∧ ¬ ['.', '.'] <:+: (fileName test).toList ∧
      (∀ c ∈ (fileName test).toList, isBlank c = false) ∧
      ¬ ['_', '_'] <:+: (fileName test).toList) ∧
    ∀ s t : String, fileName s = fileName t ↔ words s.toList = words t.toList ∧
      (words s.toList ≠ [] → (opensWithGap s.toList = opensWithGap t.toList)) := by
  refine ⟨fun test => ?_, fun s t => ?_⟩
  · obtain ⟨front, hname, hdump, hharmless⟩ := fileName_eq_append test
    obtain ⟨hslash, hdots, hblank⟩ := one_component hharmless
    have hunderscores : ¬ ['_', '_'] <:+: (fileName test).toList := by
      rw [fileName, String.toList_ofList]
      exact squeeze_single _
    rw [← hname] at hslash hdots hblank
    exact ⟨front, hname, hdump, fun c hc => isHarmless_iff.mp (hharmless c hc), hslash, hdots,
      hblank, hunderscores⟩
  · rw [fileName_eq_iff]
    exact and_congr_right opensWithWord_eq_iff

/-- Two names that differ in their gaps only, and two of which one begins with a gap. -/
theorem fileName_safe_and_shared_iff_gaps :
    fileName "io::send [t1-2]" = fileName "io/send/t1-2" ∧ fileName "[send]" ≠ fileName "send" := by
  obtain ⟨-, hshared⟩ := fileName_safe_and_shared_iff
  exact ⟨(hshared _ _).mpr (by decide +kernel),
    fun h => absurd ((hshared _ _).mp h) (by decide +kernel)⟩

end Switchover.Evidence
