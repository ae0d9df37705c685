import Mathlib
import Switchover.Json.Decode
import Switchover.Proofs.Json.Reading

/-!
Written texts and the outlines they are read as. Both forms of a value spell one outline, so they
are read alike, and a text that is read to its end may have blanks behind it. A number that JSON
cannot spell is read as `null`.
-/
namespace Switchover.Json

/-- What a number is read as. -/
def realOutline (x : Float) : Outline :=
  match Decimal.Class.of x with
  | .finite _ => .number ((readSpelling (realLiteral x)).bind fun (n, _) => n.value)
  | _ => .null

mutual

/-- What a value is read as once it is written. -/
def Value.outline : Value → Outline
  | .null => .null
  | .bool b => .bool b
  | .int n => .number (Spelling.ofInt n).value
  | .real x => realOutline x
  | .text s => .text (some s)
  | .list items => .list (itemsOutline items) true
  | .table members => .table (membersOutline members) true

/-- What items are read as. -/
def itemsOutline : List Value → List Outline
  | [] => []
  | v :: vs => v.outline :: itemsOutline vs

/-- What members are read as. -/
def membersOutline : List (String × Value) → List (Outline × Outline)
  | [] => []
  | (k, v) :: ms => (.text (some k), v.outline) :: membersOutline ms

end

theorem itemsOutline_eq_map (items : List Value) :
    itemsOutline items = items.map Value.outline := by
  induction items with
  | nil => rfl
  | cons v vs ih => rw [itemsOutline, ih, List.map_cons]

theorem membersOutline_eq_map (members : List (String × Value)) :
    membersOutline members = members.map fun (k, v) => (.text (some k), v.outline) := by
  induction members with
  | nil => rfl
  | cons m ms ih => rw [membersOutline, ih, List.map_cons]

/-! ### Both forms spell the outline -/

theorem blank_nil : Blank [] := nofun

theorem blank_space : Blank [' '] := by
  intro c hc
  obtain rfl := List.mem_singleton.mp hc
  rfl

theorem blank_newLine (depth : Nat) : Blank (newLine depth) := by
  intro c hc
  rcases List.mem_cons.mp hc with rfl | hc
  · rfl
  · rw [List.eq_of_mem_replicate hc]
    rfl

theorem spells_intLiteral (n : Int) :
    Spells (.number (Spelling.ofInt n).value) (intLiteral n) := by
  rw [← chars_ofInt]
  exact .number (isProper_ofInt n)

theorem spells_realLiteral (x : Float) : Spells (realOutline x) (realLiteral x) := by
  rw [realOutline]
  cases hx : Decimal.Class.of x with
  | finite parts =>
    obtain ⟨n, hn, hchars⟩ := exists_spelling_real hx
    have hread := readSpelling_chars hn (nofun : Stops [])
    rw [List.append_nil] at hread
    simp only [← hchars, hread, Option.bind_some]
    exact .number hn
  | _ =>
    rw [realLiteral, hx]
    exact .null

mutual

theorem Value.spells_compactChars : ∀ v : Value, Spells v.outline v.compactChars
  | .null => .null
  | .bool b => .bool b
  | .int n => spells_intLiteral n
  | .real x => spells_realLiteral x
  | .text s => .text s
  | .list [] => .emptyList blank_nil
  | .list (v :: vs) => .list (spellsItems_compactItems (v :: vs) (List.cons_ne_nil v vs))
  | .table [] => .emptyTable blank_nil
  | .table (m :: ms) => .table (spellsMembers_compactMembers (m :: ms) (List.cons_ne_nil m ms))

theorem spellsItems_compactItems : ∀ items : List Value, items ≠ [] →
    SpellsItems (itemsOutline items) (compactItems items)
  | [v], _ => by
    have hv := v.spells_compactChars
    simpa [itemsOutline, compactItems] using SpellsItems.last blank_nil hv blank_nil
  | v :: w :: ws, _ => by
    have hv := v.spells_compactChars
    have hmore := spellsItems_compactItems (w :: ws) (List.cons_ne_nil w ws)
    exact .cons blank_nil hv blank_nil hmore

theorem spellsMembers_compactMembers : ∀ members : List (String × Value), members ≠ [] →
    SpellsMembers (membersOutline members) (compactMembers members)
  | [(k, v)], _ => by
    have hv := v.spells_compactChars
    have h := SpellsMembers.last (k := k) blank_nil blank_nil hv blank_nil
    simpa [membersOutline, compactMembers] using h
  | (k, v) :: m :: ms, _ => by
    have hv := v.spells_compactChars
    have hmore := spellsMembers_compactMembers (m :: ms) (List.cons_ne_nil m ms)
    have h := SpellsMembers.cons (k := k) blank_nil blank_nil hv blank_nil hmore
    rw [membersOutline, compactMembers]
    · simpa using h
    · exact List.cons_ne_nil m ms

end

mutual

theorem Value.spells_indentedChars (depth : Nat) :
    ∀ v : Value, Spells v.outline (v.indentedChars depth)
  | .null => .null
  | .bool b => .bool b
  | .int n => spells_intLiteral n
  | .real x => spells_realLiteral x
  | .text s => .text s
  | .list [] => .emptyList blank_nil
  | .list (v :: vs) =>
    .list (spellsItems_indentedItems (depth + 1) (v :: vs) (List.cons_ne_nil v vs)
      (blank_newLine depth))
  | .table [] => .emptyTable blank_nil
  | .table (m :: ms) =>
    .table (spellsMembers_indentedMembers (depth + 1) (m :: ms) (List.cons_ne_nil m ms)
      (blank_newLine depth))

theorem spellsItems_indentedItems (depth : Nat) :
    ∀ items : List Value, items ≠ [] → ∀ {gap : List Char}, Blank gap →
      SpellsItems (itemsOutline items) (indentedItems depth items ++ gap)
  | [v], _, gap, hgap => by
    have hv := v.spells_indentedChars depth
    have h := SpellsItems.last (blank_newLine depth) hv hgap
    simpa [itemsOutline, indentedItems] using h
  | v :: w :: ws, _, gap, hgap => by
    have hv := v.spells_indentedChars depth
    have hmore := spellsItems_indentedItems depth (w :: ws) (List.cons_ne_nil w ws) hgap
    have h := SpellsItems.cons (blank_newLine depth) hv blank_nil hmore
    rw [itemsOutline, indentedItems]
    · simpa using h
    · exact List.cons_ne_nil w ws

theorem spellsMembers_indentedMembers (depth : Nat) :
    ∀ members : List (String × Value), members ≠ [] → ∀ {gap : List Char}, Blank gap →
      SpellsMembers (membersOutline members) (indentedMembers depth members ++ gap)
  | [(k, v)], _, gap, hgap => by
    have hv := v.spells_indentedChars depth
    have h := SpellsMembers.last (k := k) (blank_newLine depth) blank_space hv hgap
    simpa [membersOutline, indentedMembers] using h
  | (k, v) :: m :: ms, _, gap, hgap => by
    have hv := v.spells_indentedChars depth
    have hmore := spellsMembers_indentedMembers depth (m :: ms) (List.cons_ne_nil m ms) hgap
    have h := SpellsMembers.cons (k := k) (blank_newLine depth) blank_space hv blank_nil hmore
    rw [membersOutline, indentedMembers]
    · simpa using h
    · exact List.cons_ne_nil m ms

end

/-! ### Whole texts -/

/-- A text that spells an outline is read as it, blanks behind it included. -/
theorem readText_spells {o : Outline} {cs gap : List Char} (h : Spells o cs) (hgap : Blank gap) :
    readText (String.ofList (cs ++ gap)) = (o, true) := by
  have hstops : Stops gap := by simpa using stops_append hgap (s := []) nofun
  have hread := readValue_spells h (2 * (cs ++ gap).length + 2)
    (by rw [List.length_append]; omega) hstops
  have hskip : skipSpace gap = [] := List.dropWhile_eq_nil_iff.mpr hgap
  simp only [readText, String.toList_ofList, hread, hskip, List.isEmpty_nil]

section Decoding
variable {α : Type} (read : Outline → Decoded α)

theorem decodeText_spells {o : Outline} {cs gap : List Char} (h : Spells o cs) (hgap : Blank gap) :
    decodeText read (String.ofList (cs ++ gap)) = read o := by
  rw [decodeText, readText_spells h hgap]
  dsimp only
  cases read o <;> rfl

/-- What is written on one line is read as the outline of the value. -/
theorem decodeText_compact (v : Value) : decodeText read v.compact = read v.outline := by
  have h := decodeText_spells read v.spells_compactChars blank_nil
  rwa [List.append_nil] at h

/-- What is written over several lines is read as the outline of the value. -/
theorem decodeText_indented (v : Value) : decodeText read v.indented = read v.outline := by
  have h := decodeText_spells read (v.spells_indentedChars 0) blank_nil
  rwa [List.append_nil] at h

end Decoding

end Switchover.Json
