import Mathlib
import Switchover.Toml.Reader

/-!
What a TOML document can hold. A number of more than 64 bits is no value, and building tables moves
values and makes no new ones; a key is entered only where it is new, and a table that is visited
goes back under its own key. So every whole number of a document that is read has 64 bits, and no
table has a key twice, however deep they stand.
-/
namespace Switchover.Toml

/-- Whether a node is one that a document can hold: every whole number has 64 bits, and no table
has a key twice. -/
inductive Node.Fits : Node → Prop
  | text (s : String) : Fits (.text s)
  | int {n : Int} (h : Int64.minValue.toInt ≤ n ∧ n ≤ Int64.maxValue.toInt) : Fits (.int n)
  | moment : Fits .moment
  | other : Fits .other
  | list {items : List Node} (h : ∀ item ∈ items, Fits item) : Fits (.list items)
  | table (origin : Origin) {entries : Entries} (h : ∀ entry ∈ entries, Fits entry.2)
      (hkeys : (entries.map (·.1)).Nodup) : Fits (.table origin entries)
  | tables {items : List Entries} (h : ∀ entries ∈ items, ∀ entry ∈ entries, Fits entry.2)
      (hkeys : ∀ entries ∈ items, (entries.map (·.1)).Nodup) : Fits (.tables items)

/-- Whether the entries of a table are ones that a document can hold. -/
structure Entries.Fit (entries : Entries) : Prop where
  fits : ∀ entry ∈ entries, entry.2.Fits
  nodup : (entries.map (·.1)).Nodup

/-- Whether a draft has only entries that a document can hold. -/
structure Draft.Fits (d : Draft) : Prop where
  root : d.root.Fit
  current : d.current.Fit

/-- Whether a result, if there is one, has a property. -/
def Gives {α : Type} (x : Option α) (P : α → Prop) : Prop :=
  ∀ a, x = some a → P a

section Gives

variable {α β : Type} {P : α → Prop} {Q : β → Prop}

theorem gives_none : Gives none P := nofun

theorem gives_some {a : α} (h : P a) : Gives (some a) P := by
  rintro _ ⟨⟩
  exact h

theorem gives_bind {x : Option α} {f : α → Option β} (hx : Gives x P)
    (hf : ∀ a, P a → Gives (f a) Q) : Gives (x >>= f) Q := by
  intro b hb
  obtain ⟨a, ha, hb⟩ := Option.bind_eq_some_iff.mp hb
  exact hf a (hx a ha) b hb

theorem gives_map {x : Option α} {f : α → β} (hx : Gives x P) (hf : ∀ a, P a → Q (f a)) :
    Gives (x.map f) Q := by
  intro b hb
  obtain ⟨a, ha, rfl⟩ := Option.map_eq_some_iff.mp hb
  exact hf a (hx a ha)

theorem gives_ite {c : Prop} [Decidable c] {x y : Option α} (hx : Gives x P) (hy : Gives y P) :
    Gives (if c then x else y) P := by
  split_ifs
  · exact hx
  · exact hy

theorem gives_true {x : Option α} : Gives x fun _ => True := fun _ _ => trivial

/-- What every step keeps holds at the end. -/
theorem gives_foldlM {l : List β} {f : α → β → Option α} {a : α} (ha : P a)
    (hf : ∀ b ∈ l, ∀ a, P a → Gives (f a b) P) : Gives (l.foldlM f a) P := by
  induction l generalizing a with
  | nil => exact gives_some ha
  | cons b l ih =>
    rw [List.forall_mem_cons] at hf
    exact gives_bind (hf.1 a ha) fun a ha => ih ha hf.2

/-- What one step brings about and every later one keeps holds at the end. -/
theorem gives_foldlM_of_step {front back : List β} {b : β} {f : α → β → Option α} {a : α}
    (hstep : ∀ a, Gives (f a b) P) (hkeeps : ∀ b' ∈ back, ∀ a, P a → Gives (f a b') P) :
    Gives ((front ++ b :: back).foldlM f a) P := by
  rw [List.foldlM_append]
  refine gives_bind gives_true fun a _ => ?_
  rw [List.foldlM_cons]
  exact gives_bind (hstep a) fun a ha => gives_foldlM ha hkeeps

end Gives

/-! ### Tables -/

namespace Entries

theorem fit_nil : Fit [] := ⟨nofun, .nil⟩

theorem Fit.table {entries : Entries} (h : entries.Fit) (origin : Origin) :
    (Node.table origin entries).Fits :=
  .table origin h.fits h.nodup

theorem fits_tables {items : List Entries} (h : ∀ entries ∈ items, entries.Fit) :
    (Node.tables items).Fits :=
  .tables (fun entries hentries => (h entries hentries).fits)
    fun entries hentries => (h entries hentries).nodup

theorem Fit.fits_of_lookup {entries : Entries} (h : entries.Fit) {k : String} {node : Node}
    (hk : entries.lookup k = some node) : node.Fits := by
  obtain ⟨front, back, rfl, -⟩ := List.lookup_eq_some_iff.mp hk
  exact h.fits (k, node) (List.mem_append_right _ List.mem_cons_self)

theorem Fit.append {entries : Entries} (h : entries.Fit) {k : String} {node : Node}
    (hk : entries.lookup k = none) (hnode : node.Fits) : Fit (entries ++ [(k, node)]) where
  fits := List.forall_mem_append.mpr ⟨h.fits, List.forall_mem_singleton.mpr hnode⟩
  nodup := by
    have hnew : k ∉ entries.map (·.1) := by
      intro hmem
      obtain ⟨entry, hentry, rfl⟩ := List.mem_map.mp hmem
      simpa using List.lookup_eq_none_iff.mp hk entry hentry
    rw [List.map_append, List.map_singleton, ← List.concat_eq_append]
    exact h.nodup.concat hnew

theorem mem_map_fst_set {entries : Entries} {k key : String} {node : Node}
    (h : key ∈ (entries.set k node).map (·.1)) : key = k ∨ key ∈ entries.map (·.1) := by
  induction entries with
  | nil => exact .inl (List.mem_singleton.mp h)
  | cons entry entries ih =>
    rw [Entries.set] at h
    split_ifs at h with hk
    · subst hk
      exact .inr h
    · obtain rfl | h := List.mem_cons.mp h
      · exact .inr List.mem_cons_self
      · exact (ih h).imp_right (List.mem_cons_of_mem _)

theorem Fit.set {entries : Entries} (h : entries.Fit) (k : String) {node : Node}
    (hnode : node.Fits) : (entries.set k node).Fit := by
  induction entries with
  | nil => exact ⟨List.forall_mem_singleton.mpr hnode, List.nodup_singleton k⟩
  | cons entry entries ih =>
    obtain ⟨hentry, hentries⟩ := List.forall_mem_cons.mp h.fits
    obtain ⟨hnew, hnodup⟩ := List.nodup_cons.mp h.nodup
    have hset := ih ⟨hentries, hnodup⟩
    rw [Entries.set]
    split_ifs with hk
    · subst hk
      exact ⟨List.forall_mem_cons.mpr ⟨hnode, hentries⟩, h.nodup⟩
    · refine ⟨List.forall_mem_cons.mpr ⟨hentry, hset.fits⟩, List.nodup_cons.mpr ⟨?_, hset.nodup⟩⟩
      exact fun hmem => (mem_map_fst_set hmem).elim hk hnew

theorem Fit.erase {entries : Entries} (h : entries.Fit) (k : String) : (entries.erase k).Fit :=
  ⟨fun entry hentry => h.fits entry (List.mem_of_mem_filter hentry),
    h.nodup.sublist (List.filter_sublist.map _)⟩

/-- A visit keeps tables that a document can hold if what is done at its end does. -/
theorem gives_visit {α : Type} {P : α → Prop} {dotted braced : Bool}
    {f : Origin → Entries → Option (α × Entries)}
    (hf : ∀ origin entries, Fit entries → Gives (f origin entries) fun x => P x.1 ∧ Fit x.2)
    (path : List String) (origin : Origin) {entries : Entries} (h : entries.Fit) :
    Gives (visit dotted braced f path origin entries) fun x => P x.1 ∧ Fit x.2 := by
  induction path generalizing origin entries with
  | nil => exact hf origin entries h
  | cons k path ih =>
    rw [visit]
    split
    · exact gives_bind (ih _ fit_nil) fun x hx => gives_some ⟨hx.1, h.set k (hx.2.table _)⟩
    · next origin inner hk =>
      cases h.fits_of_lookup hk with
      | table _ hinner hkeys =>
        split_ifs
        · exact gives_none
        · exact gives_bind (ih _ ⟨hinner, hkeys⟩) fun x hx =>
            gives_some ⟨hx.1, h.set k (hx.2.table _)⟩
    · next items hk =>
      cases h.fits_of_lookup hk with
      | tables hitems hkeys =>
        refine gives_bind (P := Fit) (fun last hlast => ?_) fun last hlast => ?_
        · have hmem := List.mem_of_getLast? hlast
          exact ⟨hitems last hmem, hkeys last hmem⟩
        · refine gives_bind (ih _ hlast) fun x hx => gives_some ⟨hx.1, h.set k (fits_tables ?_)⟩
          refine List.forall_mem_append.mpr ⟨fun entries hentries => ?_, ?_⟩
          · have hmem := List.mem_of_mem_dropLast hentries
            exact ⟨hitems entries hmem, hkeys entries hmem⟩
          · exact List.forall_mem_singleton.mpr hx.2
    · exact gives_none

theorem gives_assign {braced : Bool} {path : List String} {k : String} {node : Node}
    (hnode : node.Fits) (origin : Origin) {entries : Entries} (h : entries.Fit) :
    Gives (assign braced path k node origin entries) Fit := by
  refine gives_map (gives_visit (P := fun _ => True) (fun origin inner hinner => ?_) path origin h)
    fun x hx => hx.2
  split_ifs with htaken
  · exact gives_none
  · rw [Bool.or_eq_true, not_or, Option.not_isSome_iff_eq_none] at htaken
    exact gives_some ⟨trivial, hinner.append htaken.2 hnode⟩

end Entries

theorem gives_braced {assignments : List (Key × Node)} (h : ∀ a ∈ assignments, a.2.Fits) :
    Gives (braced assignments) Node.Fits :=
  gives_bind (gives_foldlM Entries.fit_nil fun a ha _ hentries =>
    Entries.gives_assign (h a ha) _ hentries) fun _ hentries => gives_some (hentries.table _)

/-! ### Values -/

theorem gives_readMoment (s : List Char) : Gives (readMoment s) (·.1.Fits) := by
  rw [readMoment]
  split
  · exact gives_map gives_true fun _ _ => .moment
  · dsimp only
    split
    · exact gives_some .moment
    · exact gives_some .moment

theorem gives_readReal (s : List Char) : Gives (readReal s) (·.1.Fits) := by
  have hend {c : Prop} [Decidable c] {r : List Char} :
      Gives (if c then none else some (Node.other, r)) (·.1.Fits) :=
    gives_ite gives_none (gives_some .other)
  rw [readReal]
  dsimp only
  split
  · exact gives_some .other
  · exact gives_some .other
  · refine gives_bind gives_true fun _ _ => ?_
    split
    · refine gives_bind gives_true fun _ _ => ?_
      split
      · exact gives_bind gives_true fun _ _ => hend
      · exact gives_bind gives_true fun _ _ => hend
    · exact gives_bind gives_true fun _ _ => gives_bind gives_true fun _ _ => hend

theorem gives_readInt (s : List Char) : Gives (readInt s) (·.1.Fits) := by
  refine gives_bind gives_true fun x _ => ?_
  dsimp only
  split_ifs with hfits
  · exact gives_some (.int hfits)
  · exact gives_none

theorem gives_readNumber (s : List Char) : Gives (readNumber s) (·.1.Fits) := by
  rw [readNumber]
  split
  · next x hx => exact gives_some (gives_readMoment s x hx)
  · split
    · next x hx => exact gives_some (gives_readReal s x hx)
    · exact gives_readInt s

/-- Values, items of lists and assignments between braces are read out of one another. -/
theorem gives_read (room : Nat) :
    (∀ depth s, Gives (readValue room depth s) (·.1.Fits)) ∧
    (∀ depth s, Gives (readItems room depth s) fun x => ∀ item ∈ x.1, item.Fits) ∧
    ∀ depth s, Gives (readAssignments room depth s) fun x => ∀ a ∈ x.1, a.2.Fits := by
  induction room with
  | zero => exact ⟨fun _ _ => gives_none, fun _ _ => gives_none, fun _ _ => gives_none⟩
  | succ room ih =>
    obtain ⟨hvalue, hitems, hassignments⟩ := ih
    refine ⟨fun depth s => ?_, fun depth s => ?_, fun depth s => ?_⟩
    · rw [readValue.eq_def]
      dsimp only
      split
      · exact gives_map gives_true fun x _ => .text x.1
      · exact gives_map gives_true fun x _ => .text x.1
      · exact gives_ite gives_none (gives_bind (hitems _ _) fun x hx => gives_some (.list hx))
      · refine gives_ite gives_none ?_
        split
        · exact gives_bind (gives_braced nofun) fun node hnode => gives_some hnode
        · exact gives_bind (hassignments _ _) fun x hx =>
            gives_bind (gives_braced hx) fun node hnode => gives_some hnode
      · exact gives_some .other
      · exact gives_some .other
      · exact gives_readNumber _
    · rw [readItems.eq_def]
      dsimp only
      split
      · exact gives_some nofun
      · refine gives_bind (hvalue _ _) fun x hx => ?_
        split
        · exact gives_bind (hitems _ _) fun y hy =>
            gives_some (List.forall_mem_cons.mpr ⟨hx, hy⟩)
        · exact gives_some (List.forall_mem_singleton.mpr hx)
        · exact gives_none
    · rw [readAssignments.eq_def]
      dsimp only
      refine gives_bind gives_true fun k _ => gives_bind gives_true fun _ _ =>
        gives_bind (hvalue _ _) fun x hx => ?_
      split
      · exact gives_bind (hassignments _ _) fun y hy =>
          gives_some (List.forall_mem_cons.mpr ⟨hx, hy⟩)
      · exact gives_some (List.forall_mem_singleton.mpr hx)
      · exact gives_none

/-! ### Documents -/

namespace Draft

theorem gives_close {d : Draft} (h : d.Fits) : Gives d.close Entries.Fit := by
  rw [close]
  split
  · exact gives_some h.current
  · next key _ =>
    refine gives_map (Entries.gives_visit (P := fun _ => True) (fun _ entries hentries => ?_) _ _
      h.root) fun x hx => hx.2
    split
    · refine gives_some ⟨trivial, hentries.set _ (Entries.fits_tables ?_)⟩
      exact List.forall_mem_singleton.mpr h.current
    · next items _ hk =>
      cases hentries.fits_of_lookup hk with
      | tables hitems hkeys =>
        refine gives_some ⟨trivial, hentries.set _ (Entries.fits_tables ?_)⟩
        refine List.forall_mem_append.mpr ⟨fun entries hmem => ?_, ?_⟩
        · exact ⟨hitems entries hmem, hkeys entries hmem⟩
        · exact List.forall_mem_singleton.mpr h.current
    · next hk => exact gives_some ⟨trivial, hentries.append hk (h.current.table _)⟩
    · exact gives_none

theorem gives_header {d : Draft} (h : d.Fits) (key : Key) : Gives (d.header key) Fits := by
  refine gives_bind (gives_close h) fun root hroot => ?_
  refine gives_bind (Entries.gives_visit (P := Entries.Fit) (fun _ entries hentries => ?_) _ _
    hroot) fun x hx => gives_some ⟨hx.2, hx.1⟩
  split
  · exact gives_some ⟨Entries.fit_nil, hentries⟩
  · next origin inner hk =>
    cases hentries.fits_of_lookup hk with
    | table _ hinner hkeys =>
      exact gives_ite (gives_some ⟨⟨hinner, hkeys⟩, hentries.erase _⟩) gives_none
  · exact gives_none

theorem gives_repeatedHeader {d : Draft} (h : d.Fits) (key : Key) :
    Gives (d.repeatedHeader key) Fits :=
  gives_bind (gives_close h) fun _ hroot => gives_some ⟨hroot, Entries.fit_nil⟩

theorem gives_assign {d : Draft} (h : d.Fits) (key : Key) {node : Node} (hnode : node.Fits) :
    Gives (d.assign key node) Fits :=
  gives_bind (Entries.gives_assign hnode _ h.current) fun _ hcurrent =>
    gives_some ⟨h.root, hcurrent⟩

end Draft

theorem gives_readStatement {d : Draft} (h : d.Fits) (s : List Char) :
    Gives (readStatement d s) (·.1.Fits) := by
  rw [readStatement.eq_def]
  split
  · exact gives_bind gives_true fun _ _ => gives_some h
  · exact gives_some h
  · exact gives_some h
  · exact gives_bind gives_true fun _ _ => gives_bind gives_true fun _ _ =>
      gives_bind gives_true fun _ _ => gives_bind gives_true fun _ _ =>
        gives_bind (Draft.gives_repeatedHeader h _) fun _ hd => gives_some hd
  · exact gives_bind gives_true fun _ _ => gives_bind gives_true fun _ _ =>
      gives_bind gives_true fun _ _ => gives_bind (Draft.gives_header h _) fun _ hd => gives_some hd
  · exact gives_bind gives_true fun _ _ => gives_bind gives_true fun _ _ =>
      gives_bind ((gives_read _).1 _ _) fun _ hnode =>
        gives_bind (Draft.gives_assign h _ hnode) fun _ hd =>
          gives_bind gives_true fun _ _ => gives_some hd

theorem gives_readStatements (fuel : Nat) {d : Draft} (h : d.Fits) (s : List Char) :
    Gives (readStatements fuel d s) Draft.Fits := by
  induction fuel generalizing d s with
  | zero => exact gives_none
  | succ fuel ih =>
    rw [readStatements]
    split
    · exact gives_some h
    · exact gives_bind (gives_readStatement h _) fun x hx => ih hx _

/-- Every whole number of a document has 64 bits, and no table of it has a key twice. -/
theorem gives_read? (s : String) : Gives (read? s) Entries.Fit :=
  gives_bind (gives_readStatements _ ⟨Entries.fit_nil, Entries.fit_nil⟩ _) fun _ hd =>
    Draft.gives_close hd

end Switchover.Toml
