import Mathlib
import Switchover.Proofs.Toml.Literals

/-!
Whole TOML texts, as a printer writes them. Each line is one statement: a header, which opens a
table that was not there, or an assignment of a key that its table does not have yet. So the tables
come out in the order in which they were written, with their entries in that order.
-/
namespace Switchover.Toml

open Text (ne_of_kinds takeWhile_stretch dropWhile_stretch)

/-- Whether a key can stand without quotes. -/
def IsBare (k : String) : Prop :=
  k.toList ≠ [] ∧ ∀ c ∈ k.toList, isBareChar c = true

instance (k : String) : Decidable (IsBare k) :=
  decidable_of_iff (k.toList ≠ [] ∧ k.toList.all isBareChar = true) (by
    rw [IsBare, List.all_eq_true])

/-- Whether a table can be written and read back. -/
structure Section.IsPlain (t : Section) : Prop where
  name : IsBare t.name
  keys : ∀ assignment ∈ t.assignments, IsBare assignment.1
  nodup : (t.assignments.map Prod.fst).Nodup
  fits : ∀ assignment ∈ t.assignments, assignment.2.Fits

/-- The entries that a table is read as. -/
def Section.entries (t : Section) : Entries :=
  t.assignments.map fun assignment => (assignment.1, assignment.2.node)

/-- The node that a table is read as, under its name. -/
def Section.entry (t : Section) : String × Node :=
  (t.name, .table .headed t.entries)

/-! ### Keys -/

theorem IsBare.exists_cons {k : String} (h : IsBare k) :
    ∃ c cs, k.toList = c :: cs ∧ isBareChar c = true := by
  obtain ⟨c, cs, hcs⟩ := List.exists_cons_of_ne_nil h.1
  exact ⟨c, cs, hcs, h.2 c (hcs ▸ List.mem_cons_self)⟩

theorem isSpace_of_isBareChar {c : Char} (h : isBareChar c = true) : isSpace c = false := by
  rw [← Bool.not_eq_true]
  intro hspace
  rw [isSpace, Bool.or_eq_true, beq_iff_eq, beq_iff_eq] at hspace
  rcases hspace with rfl | rfl <;> cases h

theorem skipSpace_bare {c : Char} (hc : isBareChar c = true) (s : List Char) :
    skipSpace (c :: s) = c :: s := by
  simp [skipSpace, isSpace_of_isBareChar hc]

theorem readKeyPart_bare {k : String} (hk : IsBare k) {s : List Char}
    (hs : ∀ c ∈ s.head?, isBareChar c = false) : readKeyPart (k.toList ++ s) = some (k, s) := by
  obtain ⟨c, cs, hcs, hc⟩ := hk.exists_cons
  have hne {d : Char} (hd : isBareChar d = false) (r : List Char) : k.toList ++ s ≠ d :: r := by
    rw [hcs]
    exact fun heq => ne_of_kinds hc hd (List.cons.inj heq).1
  rw [readKeyPart, takeWhile_stretch hk.2 hs, dropWhile_stretch hk.2 hs]
  · split
    · next hnil => exact absurd hnil hk.1
    · rw [String.ofList_toList]
  · exact hne (by decide)
  · exact hne (by decide)

/-- A key without quotes and dots, with what may stand behind it. -/
theorem readKey_bare {k : String} (hk : IsBare k) {s : List Char}
    (hs : ∀ c ∈ s.head?, isBareChar c = false) (hdot : ∀ r, skipSpace s ≠ '.' :: r) :
    readKey (k.toList ++ s) = some (⟨[], k⟩, skipSpace s) := by
  obtain ⟨c, cs, hcs, hc⟩ := hk.exists_cons
  have hskip : skipSpace (k.toList ++ s) = k.toList ++ s := by
    rw [hcs]
    exact skipSpace_bare hc _
  simp [readKey, readKeyParts, hskip, readKeyPart_bare hk hs, depthLimit]

/-! ### Statements -/

/-- The line of an assignment. -/
def assignmentChars (assignment : String × Literal) : List Char :=
  assignment.1.toList ++ ' ' :: '=' :: ' ' :: (assignment.2.render.toList ++ ['\n'])

theorem trailing?_newline (rest : List Char) : trailing? ('\n' :: rest) = some rest := by
  simp [trailing?, skipSpace, isSpace, skipComment, lineEnd?, newline?]

theorem readStatement_header {name : String} (h : IsBare name) (d : Draft) (rest : List Char) :
    readStatement d ('[' :: (name.toList ++ ']' :: '\n' :: rest)) =
      (d.header ⟨[], name⟩).map (·, rest) := by
  have hkey := readKey_bare (s := ']' :: '\n' :: rest) h (by simp; decide)
    (by simp [skipSpace, isSpace])
  obtain ⟨c, cs, hcs, hc⟩ := h.exists_cons
  have hne := ne_of_kinds (b := '[') hc (by decide)
  have hskip : skipSpace (']' :: '\n' :: rest) = ']' :: '\n' :: rest := rfl
  rw [hcs, hskip] at hkey
  rw [hcs, readStatement]
  · rw [hkey]
    cases hheader : d.header ⟨[], name⟩ <;> simp [expect, trailing?_newline, hheader]
  · exact fun r hr => hne (List.cons.inj hr).1

theorem readStatement_assignment {assignment : String × Literal} (hbare : IsBare assignment.1)
    (hfits : assignment.2.Fits) (d : Draft) (rest : List Char) :
    readStatement d (assignmentChars assignment ++ rest) =
      (d.assign ⟨[], assignment.1⟩ assignment.2.node).map (·, rest) := by
  obtain ⟨k, v⟩ := assignment
  have hchars : assignmentChars (k, v) ++ rest =
      k.toList ++ ' ' :: '=' :: ' ' :: (v.render.toList ++ '\n' :: rest) := by
    simp [assignmentChars]
  have hkey := readKey_bare (s := ' ' :: '=' :: ' ' :: (v.render.toList ++ '\n' :: rest)) hbare
    (by simp; decide) (by simp [skipSpace, isSpace])
  have hskip : skipSpace (' ' :: '=' :: ' ' :: (v.render.toList ++ '\n' :: rest)) =
      '=' :: ' ' :: (v.render.toList ++ '\n' :: rest) := rfl
  have hvalue : skipSpace (' ' :: (v.render.toList ++ '\n' :: rest)) =
      v.render.toList ++ '\n' :: rest := skipSpace_render v _
  obtain ⟨c, cs, hcs, hc⟩ := hbare.exists_cons
  have hne {e : Char} (he : isBareChar e = false) (r : List Char) :
      c :: (cs ++ ' ' :: '=' :: ' ' :: (v.render.toList ++ '\n' :: rest)) ≠ e :: r :=
    fun heq => ne_of_kinds hc he (List.cons.inj heq).1
  rw [hcs, hskip] at hkey
  rw [hchars, hcs, List.cons_append, readStatement]
  · rw [← List.cons_append, hkey]
    simp only [Option.bind_eq_bind, Option.bind_some, expect, if_true, hvalue]
    rw [readValue_render hfits]
    cases hassign : d.assign ⟨[], k⟩ v.node <;> simp [trailing?_newline, hassign]
  all_goals
    intro r
    exact hne (by decide) _

/-! ### Drafts -/

theorem lookup_concat {entries : Entries} {k k' : String} (h : entries.lookup k = none)
    (hne : k ≠ k') (node : Node) : (entries ++ [(k', node)]).lookup k = none := by
  have hkey : (k == k') = false := by simpa using hne
  simp [List.lookup_append, h, List.lookup_cons, hkey]

namespace Draft

/-- A new key goes behind the others of the table that is being written. -/
theorem assign_eq_some {d : Draft} {k : String} (h : d.current.lookup k = none) (node : Node) :
    d.assign ⟨[], k⟩ node = some { d with current := d.current ++ [(k, node)] } := by
  simp [assign, Entries.assign, Entries.visit, Origin.headed, h]

/-- A header for a new table puts the one that was being written in its place. -/
theorem header_eq_some {d : Draft} {root : Entries} {name : String} (hclose : d.close = some root)
    (h : root.lookup name = none) :
    d.header ⟨[], name⟩ = some ⟨root, [], some ⟨[], name⟩, false⟩ := by
  simp [header, hclose, Entries.visit, h]

theorem close_eq_some {root current : Entries} {name : String} (h : root.lookup name = none) :
    close ⟨root, current, some ⟨[], name⟩, false⟩ =
      some (root ++ [(name, .table .headed current)]) := by
  simp [close, Entries.visit, h]

/-- Whether the rest of a text turns a draft into another one. -/
def Becomes (d : Draft) (s : List Char) (e : Draft) : Prop :=
  ∀ fuel, s.length < fuel → readStatements fuel d s = some e

theorem becomes_nil (d : Draft) : d.Becomes [] d := by
  intro fuel hfuel
  obtain ⟨fuel, rfl⟩ := Nat.exists_eq_add_of_le' hfuel
  rfl

/-- One statement, and what the text behind it makes of the draft. -/
theorem Becomes.step {d d' e : Draft} {c : Char} {s r : List Char} (hc : isSpace c = false)
    (h : readStatement d (c :: s) = some (d', r)) (hlength : r.length ≤ s.length)
    (hr : d'.Becomes r e) : d.Becomes (c :: s) e := by
  intro fuel hfuel
  obtain ⟨fuel, rfl⟩ := Nat.exists_eq_add_of_le' (Nat.zero_lt_of_lt hfuel)
  have hskip : skipSpace (c :: s) = c :: s := by simp [skipSpace, hc]
  have hrest := hr fuel (hlength.trans_lt (Nat.lt_of_succ_lt_succ hfuel))
  simp [readStatements, hskip, h, hrest]

/-- The lines of assignments with new keys put their entries behind the others. -/
theorem becomes_assignments {assignments : List (String × Literal)} {d e : Draft} {s : List Char}
    (hkeys : ∀ a ∈ assignments, IsBare a.1) (hfits : ∀ a ∈ assignments, a.2.Fits)
    (hnodup : (assignments.map Prod.fst).Nodup)
    (hnew : ∀ a ∈ assignments, d.current.lookup a.1 = none)
    (hs : Becomes { d with current := d.current ++ assignments.map fun a => (a.1, a.2.node) } s e) :
    d.Becomes (assignments.flatMap assignmentChars ++ s) e := by
  induction assignments generalizing d with
  | nil => simpa using hs
  | cons a assignments ih =>
    obtain ⟨hkey, hkeys⟩ := List.forall_mem_cons.mp hkeys
    obtain ⟨hfit, hfits⟩ := List.forall_mem_cons.mp hfits
    obtain ⟨hnewkey, hnew⟩ := List.forall_mem_cons.mp hnew
    rw [List.map_cons, List.nodup_cons] at hnodup
    have hrest := ih (d := { d with current := d.current ++ [(a.1, a.2.node)] }) hkeys hfits
      hnodup.2 (by
        intro b hb
        have hne : b.1 ≠ a.1 := fun h => hnodup.1 (h ▸ List.mem_map_of_mem hb)
        exact lookup_concat (hnew b hb) hne _)
      (by simpa using hs)
    have hread := readStatement_assignment hkey hfit d (assignments.flatMap assignmentChars ++ s)
    rw [assign_eq_some hnewkey] at hread
    obtain ⟨c, cs, hcs, hc⟩ := hkey.exists_cons
    rw [List.flatMap_cons, List.append_assoc]
    rw [assignmentChars, hcs] at hread ⊢
    exact Becomes.step (isSpace_of_isBareChar hc) hread (by simp; omega) hrest

end Draft

/-! ### Documents -/

/-- The lines of a table. -/
def Section.chars (t : Section) : List Char :=
  '[' :: (t.name.toList ++ ']' :: '\n' :: t.assignments.flatMap assignmentChars)

theorem Section.toList_render (t : Section) : t.render.toList = t.chars := by
  have hline (a : String × Literal) :
      (a.1 ++ " = " ++ a.2.render ++ "\n").toList = assignmentChars a := by
    simp [assignmentChars]
  simp [Section.render, Section.chars, String.toList_join, List.flatMap_map, hline]

theorem Draft.becomes_section {d e : Draft} {root : Entries} {t : Section} {s : List Char}
    (ht : t.IsPlain) (hclose : d.close = some root) (hnew : root.lookup t.name = none)
    (hs : Draft.Becomes ⟨root, t.entries, some ⟨[], t.name⟩, false⟩ s e) :
    d.Becomes (t.chars ++ s) e := by
  have hread := readStatement_header ht.name d (t.assignments.flatMap assignmentChars ++ s)
  rw [header_eq_some hclose hnew] at hread
  have hlines := becomes_assignments (d := ⟨root, [], some ⟨[], t.name⟩, false⟩) ht.keys ht.fits
    ht.nodup (fun _ _ => rfl) hs
  have hchars : t.chars ++ s = '[' :: (t.name.toList ++ ']' :: '\n' ::
      (t.assignments.flatMap assignmentChars ++ s)) := by
    simp [Section.chars]
  rw [hchars]
  exact Becomes.step rfl hread (by simp; omega) hlines

/-- Tables with an empty line between them are put behind one another. -/
theorem Draft.exists_becomes {sections : List Section} (hne : sections ≠ []) {d : Draft}
    {root : Entries} (hplain : ∀ t ∈ sections, t.IsPlain)
    (hnodup : (sections.map Section.name).Nodup) (hclose : d.close = some root)
    (hnew : ∀ t ∈ sections, root.lookup t.name = none) :
    ∃ e, d.Becomes (['\n'].intercalate (sections.map Section.chars)) e ∧
      e.close = some (root ++ sections.map Section.entry) := by
  induction sections generalizing d root with
  | nil => exact absurd rfl hne
  | cons t sections ih =>
    obtain ⟨ht, hplain⟩ := List.forall_mem_cons.mp hplain
    obtain ⟨hnewname, hnew⟩ := List.forall_mem_cons.mp hnew
    rw [List.map_cons, List.nodup_cons] at hnodup
    have hclosed : close ⟨root, t.entries, some ⟨[], t.name⟩, false⟩ = some (root ++ [t.entry]) :=
      close_eq_some hnewname
    cases sections with
    | nil =>
      have hall := becomes_section ht hclose hnewname (becomes_nil _)
      exact ⟨_, by simpa using hall, hclosed⟩
    | cons u sections =>
      have hnew : ∀ u' ∈ u :: sections, (root ++ [t.entry]).lookup u'.name = none := by
        intro u' hu'
        have hne : u'.name ≠ t.name := fun h => hnodup.1 (h ▸ List.mem_map_of_mem hu')
        exact lookup_concat (hnew u' hu') hne _
      obtain ⟨e, hrest, hclose'⟩ :=
        ih (List.cons_ne_nil _ _) hplain hnodup.2 hclosed hnew
      have hblank := Becomes.step (c := '\n') rfl rfl le_rfl hrest
      refine ⟨e, ?_, by simpa using hclose'⟩
      have hall := becomes_section ht hclose hnewname hblank
      simpa using hall

/-- Tables with different plain names are read as they were written. -/
theorem read?_render {sections : List Section} (hplain : ∀ t ∈ sections, t.IsPlain)
    (hnodup : (sections.map Section.name).Nodup) :
    read? (render sections) = some (sections.map Section.entry) := by
  by_cases hne : sections = []
  · subst hne
    rfl
  · have hempty : Draft.empty.close = some [] := rfl
    obtain ⟨e, hread, hclose⟩ := Draft.exists_becomes hne hplain hnodup hempty fun _ _ => rfl
    have hchars : (render sections).toList =
        ['\n'].intercalate (sections.map Section.chars) := by
      have hmap : (sections.map Section.render).map String.toList = sections.map Section.chars := by
        simp [Section.toList_render]
      rw [render, String.toList_intercalate, hmap]
      rfl
    have hbracket : ∃ s, (render sections).toList = '[' :: s := by
      rw [hchars]
      match sections, hne with
      | [t], _ => exact ⟨_, by simp [Section.chars]; rfl⟩
      | t :: u :: sections, _ => exact ⟨_, by simp [Section.chars]; rfl⟩
    obtain ⟨s, hs⟩ := hbracket
    rw [← hchars, hs] at hread
    have hmark : ('[' : Char) ≠ Char.ofNat 0xFEFF := by decide
    have hstatements : readStatements (s.length + 1 + 1) .empty ('[' :: s) = some e :=
      hread _ (Nat.lt_succ_self _)
    simpa [read?, hs, hmark, hstatements] using hclose

end Switchover.Toml
