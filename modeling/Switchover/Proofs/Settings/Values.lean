import Mathlib
import Switchover.Settings.File
import Switchover.Proofs.Toml.Bounds
import Switchover.Proofs.Toml.Literals

/-!
The values that a settings file gives. A file may leave out any section and any key, give a section
as a table, a list or a date, and name the form of the log lines in two ways. What it leaves out
keeps its default and what it gives is taken over, since each key that is read writes its own value
and no other, and no key stands twice.
-/
namespace Switchover.Settings

open Toml (Entries Gives Literal Node)

/-! ### Keys and values -/

/-- The times of a run by their keys. -/
def runLiterals (r : RunSettings) : List (String × Literal) :=
  [("settle_delay_ms", .nat r.settleDelay.toNat),
    ("drain_poll_interval_ms", .nat r.pollInterval.toNat),
    ("startup_timeout_ms", .nat r.startupTimeout.toNat)]

/-- The gaps between packets by their keys. -/
def sendIntervalLiterals (i : SendIntervals) : List (String × Literal) :=
  [("t1_to_server", .nat i.t1ToServer.toNat), ("server_to_t1", .nat i.serverToT1.toNat),
    ("soc_to_t1", .nat i.socToT1.toNat), ("t1_to_soc", .nat i.t1ToSoc.toNat),
    ("server_to_server", .nat i.serverToServer.toNat)]

/-- What is logged, by its keys. -/
def logLiterals (l : LogSettings) : List (String × Literal) :=
  [("level", .text l.level), ("format", .text l.format.name)]

/-- Where the capture is, by its key. -/
def evidenceLiterals (e : EvidenceSettings) : List (String × Literal) :=
  [("capture_path", .text e.capturePath)]

/-- The values of a section by their keys; none if there is no such section. -/
def literals (s : Settings) (name : String) : List (String × Literal) :=
  ((s.sections.find? (·.name == name)).map (·.assignments)).getD []

/-- The value that the settings have for a key of a section, if there is such a key. -/
def value? (s : Settings) (name key : String) : Option Literal :=
  (s.literals name).lookup key

/-- The keys of a section in order. -/
def keysOf (name : String) : List String :=
  (Settings.default.literals name).map (·.1)

/-- The keys that a section gives and their nodes. The items of a list are for the keys in turn. -/
def given (keys : List String) : Node → List (String × Node)
  | .table _ entries => entries
  | .list items => keys.zip items
  | .tables items => keys.zip (items.map fun entries => .table .headed entries)
  | _ => []

/-- Whether a document gives no value for a key of a section. -/
def Omits (entries : Entries) (name key : String) : Prop :=
  ∀ node, (name, node) ∈ entries → key ∉ (given (keysOf name) node).map (·.1)

instance (entries : Entries) (name key : String) : Decidable (Omits entries name key) :=
  decidable_of_iff (entries.all fun entry =>
    entry.1 != name || !((given (keysOf name) entry.2).map (·.1)).contains key) (by
    simp only [List.all_eq_true, Bool.or_eq_true, bne_iff_ne, Bool.not_eq_true',
      List.contains_eq_mem, decide_eq_false_iff_not]
    exact ⟨fun h node hnode => (h _ hnode).resolve_left fun hne => hne rfl,
      fun h entry hentry => or_iff_not_imp_left.mpr fun hname =>
        h entry.2 (not_not.mp hname ▸ hentry)⟩)

/-- Whether a document gives a node for a key of a section. -/
def Assigns (entries : Entries) (name key : String) (node : Node) : Prop :=
  ∃ group, (name, group) ∈ entries ∧ (key, node) ∈ given (keysOf name) group

/-- Whether a node says a value. A word may also be the only key of a table with nothing in it. -/
inductive Says : Node → Literal → Prop
  | number (n : Nat) : Says (.int n) (.nat n)
  | text (s : String) : Says (.text s) (.text s)
  | asKey (origin : Toml.Origin) {s : String} {node : Node} (h : isVoid node = true) :
      Says (.table origin [(s, node)]) (.text s)

/-- The four sections, by their names. -/
theorem literals_eq (s : Settings) (name : String) : s.literals name =
    if name = "io" then runLiterals s.run
    else if name = "send_interval_ms" then sendIntervalLiterals s.sendIntervals
    else if name = "logging" then logLiterals s.log
    else if name = "evidence" then evidenceLiterals s.evidence
    else [] := by
  have hbeq (n : String) : (n == name) = decide (name = n) := by
    rw [Bool.eq_iff_iff, beq_iff_eq, decide_eq_true_eq, eq_comm]
  simp only [literals, sections, List.find?_cons, List.find?_nil, hbeq]
  split_ifs <;> simp_all <;> rfl

theorem fits_default (name : String) :
    ∀ assignment ∈ Settings.default.literals name, assignment.2.Fits := by
  rw [literals_eq]
  split_ifs
  · decide
  · decide
  · decide
  · decide
  · nofun

/-! ### Reading a section -/

/-- Puts a value under a key that is there. -/
def writeAt (k : String) (v : Literal) (assignment : String × Literal) : String × Literal :=
  if assignment.1 = k then (k, v) else assignment

theorem lookup_map_writeAt {l : List (String × Literal)} {k key : String} (hne : key ≠ k)
    (v : Literal) : (l.map (writeAt k v)).lookup key = l.lookup key := by
  induction l with
  | nil => rfl
  | cons assignment l ih =>
    rw [List.map_cons, writeAt]
    split_ifs with hk
    · have hkey : (key == k) = false := by simpa using hne
      rw [List.lookup_cons, List.lookup_cons, hk, hkey, ih]
    · rw [List.lookup_cons, List.lookup_cons, ih]

theorem lookup_map_writeAt_self {l : List (String × Literal)} {k : String}
    (hk : k ∈ l.map (·.1)) (v : Literal) : (l.map (writeAt k v)).lookup k = some v := by
  induction l with
  | nil => cases hk
  | cons assignment l ih =>
    rw [List.map_cons, writeAt]
    split_ifs with hkey
    · exact List.lookup_cons_self
    · have hne : (k == assignment.1) = false := by simpa using Ne.symm hkey
      rw [List.lookup_cons, hne, ih ((List.mem_cons.mp hk).resolve_left (Ne.symm hkey))]

theorem fits_of_mem_given {keys : List String} {node : Node} (h : node.Fits) :
    ∀ entry ∈ given keys node, entry.2.Fits := by
  cases h with
  | table origin h => exact h
  | list h => exact fun entry hentry => h entry.2 (List.of_mem_zip hentry).2
  | tables h hkeys =>
    intro entry hentry
    obtain ⟨entries, hentries, heq⟩ := List.mem_map.mp (List.of_mem_zip hentry).2
    rw [← heq]
    exact .table .headed (h entries hentries) (hkeys entries hentries)
  | _ => nofun

theorem map_fst_zip_sublist : ∀ (keys : List String) (items : List Node),
    ((keys.zip items).map (·.1)).Sublist keys
  | [], _ => .slnil
  | _ :: _, [] => List.nil_sublist _
  | k :: keys, _ :: items => (map_fst_zip_sublist keys items).cons_cons k

/-- A section gives no key twice. -/
theorem nodup_given {keys : List String} (hkeys : keys.Nodup) {node : Node} (h : node.Fits) :
    ((given keys node).map (·.1)).Nodup := by
  cases h with
  | table origin h hnodup => exact hnodup
  | list | tables => exact hkeys.sublist (map_fst_zip_sublist _ _)
  | _ => exact .nil

theorem notMem_of_nodup {front back : List (String × Node)} {k : String} {node : Node}
    (h : ((front ++ (k, node) :: back).map (·.1)).Nodup) : k ∉ back.map (·.1) := by
  rw [List.map_append, List.map_cons] at h
  exact (List.nodup_cons.mp h.of_append_right).1

section Group

variable {α : Type} {view : α → List (String × Literal)}

/-- Whether reading a node under a key writes the value of this key and nothing else: what the node
says, within the bound, if a document can hold the node. -/
def Writes (view : α → List (String × Literal)) (k : String) (node : Node) (a b : α) : Prop :=
  ∃ v : Literal, (node.Fits → v.Fits ∧ Says node v) ∧ view b = (view a).map (writeAt k v)

namespace Writes
variable {k : String} {node : Node} {a b : α} (h : Writes view k node a b)
include h

theorem lookup_of_ne {key : String} (hne : key ≠ k) :
    (view b).lookup key = (view a).lookup key := by
  obtain ⟨v, -, hwrite⟩ := h
  rw [hwrite, lookup_map_writeAt hne]

theorem lookup_self (hk : k ∈ (view a).map (·.1)) (hnode : node.Fits) :
    ∃ v, Says node v ∧ (view b).lookup k = some v := by
  obtain ⟨v, hv, hwrite⟩ := h
  exact ⟨v, (hv hnode).2, hwrite ▸ lookup_map_writeAt_self hk v⟩

theorem fits (hnode : node.Fits) (ha : ∀ assignment ∈ view a, assignment.2.Fits) :
    ∀ assignment ∈ view b, assignment.2.Fits := by
  obtain ⟨v, hv, hwrite⟩ := h
  rw [hwrite, List.forall_mem_map]
  intro assignment hassignment
  rw [writeAt]
  split_ifs
  · exact (hv hnode).1
  · exact ha assignment hassignment

end Writes

theorem gives_millis {a : α} {k : String} {set : UInt64 → α}
    (hset : ∀ n, view (set n) = (view a).map (writeAt k (.nat n.toNat))) (node : Node) :
    Gives (do return set (← millis? node)) (Writes view k node a) := by
  refine Toml.gives_bind
    (P := fun n => node.Fits → n.toNat < 2 ^ 63 ∧ Says node (.nat n.toNat)) ?_ fun n hn =>
    Toml.gives_some ⟨.nat n.toNat, hn, hset n⟩
  rw [millis?.eq_def]
  split
  · next n =>
    split_ifs with hpos
    · refine Toml.gives_some fun hfits => ?_
      cases hfits with
      | int hfits =>
        rw [Int64.toInt_maxValue] at hfits
        have hn : (UInt64.ofNat n.toNat).toNat = n.toNat := by
          rw [UInt64.toNat_ofNat']
          omega
        have hsays := Says.number n.toNat
        rw [Int.toNat_of_nonneg hpos] at hsays
        rw [hn]
        exact ⟨by omega, hsays⟩
    · exact Toml.gives_none
  · exact Toml.gives_none

theorem gives_text {β : Type} (name : β → String) {read : Node → Option β} {a : α} {k : String}
    {set : β → α} {node : Node} (hread : Gives (read node) fun b => Says node (.text (name b)))
    (hset : ∀ b, view (set b) = (view a).map (writeAt k (.text (name b)))) :
    Gives (do return set (← read node)) (Writes view k node a) :=
  Toml.gives_bind hread fun b hb =>
    Toml.gives_some ⟨.text (name b), fun _ => ⟨trivial, hb⟩, hset b⟩

theorem gives_text? (node : Node) : Gives (text? node) fun s => Says node (.text s) := by
  rw [text?.eq_def]
  split
  · exact Toml.gives_some (.text _)
  · exact Toml.gives_none

theorem gives_logFormat? (node : Node) :
    Gives (logFormat? node) fun f => Says node (.text f.name) := by
  have hnamed (s : String) : Gives (logFormat?.named s) fun f => f.name = s := by
    intro f hf
    rw [logFormat?.named] at hf
    simpa using List.find?_some hf
  rw [logFormat?.eq_def]
  split
  · next s =>
    intro f hf
    rw [hnamed s f hf]
    exact .text s
  · next origin s node =>
    refine Toml.gives_bind (hnamed s) fun f hf => ?_
    split_ifs with hvoid
    · subst hf
      exact Toml.gives_some (.asKey origin hvoid)
    · exact Toml.gives_none
  · exact Toml.gives_none

/-- Whether values are those of a section with this name and node. The keys that it omits have their
defaults; if a document can hold the node, those that it gives have the values that it says, and
all values are within the bound. -/
structure Holds (name : String) (node : Node) (l : List (String × Literal)) : Prop where
  omitted : ∀ key ∉ (given (keysOf name) node).map (·.1),
    l.lookup key = Settings.default.value? name key
  said : node.Fits → ∀ key ∈ keysOf name, ∀ item, (key, item) ∈ given (keysOf name) node →
    ∃ v, Says item v ∧ l.lookup key = some v
  fits : node.Fits → ∀ assignment ∈ l, assignment.2.Fits

theorem nodup_keysOf (name : String) : (keysOf name).Nodup := by
  rw [keysOf, literals_eq]
  split_ifs <;> decide

/-- Reads one key of a section; those that are not ours are skipped. -/
def readKey (name : String) (accept : α → String → Node → Option α) (a : α)
    (entry : String × Node) : Option α :=
  if entry.1 ∈ keysOf name then accept a entry.1 entry.2 else some a

section Reading
variable {name : String} {accept : α → String → Node → Option α} {start : α}
  (haccept : ∀ a k node, k ∈ keysOf name → Gives (accept a k node) (Writes view k node a))

theorem gives_readGroup?_of_foldlM {P : α → Prop} (node : Node)
    (h : Gives ((given (keysOf name) node).foldlM (readKey name accept) start) P) :
    Gives (readGroup? (keysOf name) accept start node) P := by
  cases node with
  | table | list | tables | moment => exact h
  | text | int | other => exact Toml.gives_none

include haccept

/-- A key of a section either is not ours and is skipped, or writes its value. -/
theorem gives_readKey (a : α) (entry : String × Node) : Gives (readKey name accept a entry)
    fun b => b = a ∨ Writes view entry.1 entry.2 a b := by
  rw [readKey]
  split_ifs with hk
  · exact fun b hb => .inr (haccept a entry.1 entry.2 hk b hb)
  · exact Toml.gives_some (.inl rfl)

/-- A key keeps the values of all others. -/
theorem gives_readKey_of_ne {key : String} {value : Option Literal} {entry : String × Node}
    (hne : key ≠ entry.1) (a : α) (ha : (view a).lookup key = value) :
    Gives (readKey name accept a entry) fun b => (view b).lookup key = value := by
  intro b hb
  rcases gives_readKey haccept a entry b hb with rfl | hwrites
  · exact ha
  · rw [hwrites.lookup_of_ne hne, ha]

end Reading

/-- A section whose keys each write their own value holds what its node says. -/
theorem gives_readGroup? {name : String} {accept : α → String → Node → Option α} {start : α}
    (hstart : view start = Settings.default.literals name)
    (hkeys : ∀ a, (view a).map (·.1) = keysOf name)
    (haccept : ∀ a k node, k ∈ keysOf name → Gives (accept a k node) (Writes view k node a))
    (node : Node) :
    Gives (readGroup? (keysOf name) accept start node) fun b => Holds name node (view b) := by
  intro b hb
  refine ⟨fun key hkey => ?_, fun hnode key hkey item hitem => ?_, fun hnode => ?_⟩
  · refine gives_readGroup?_of_foldlM (P := fun b => (view b).lookup key = _) node
      (Toml.gives_foldlM (hstart ▸ rfl) fun entry hentry a ha => ?_) b hb
    exact gives_readKey_of_ne haccept
      (fun h : key = entry.1 => hkey (h ▸ List.mem_map_of_mem hentry)) a ha
  · obtain ⟨front, back, hsplit⟩ := List.append_of_mem hitem
    have hnew := notMem_of_nodup (hsplit ▸ nodup_given (nodup_keysOf name) hnode)
    refine gives_readGroup?_of_foldlM
      (P := fun b => ∃ v, Says item v ∧ (view b).lookup key = some v) node ?_ b hb
    rw [hsplit]
    refine Toml.gives_foldlM_of_step (fun a b hb => ?_) fun entry hentry a ha => ?_
    · rw [readKey, if_pos hkey] at hb
      exact (haccept a key item hkey b hb).lookup_self (hkeys a ▸ hkey)
        (fits_of_mem_given hnode _ hitem)
    · obtain ⟨v, hsays, hv⟩ := ha
      have hkeeps := gives_readKey_of_ne haccept
        (fun h : key = entry.1 => hnew (h ▸ List.mem_map_of_mem hentry)) a hv
      exact fun b hb => ⟨v, hsays, hkeeps b hb⟩
  · refine gives_readGroup?_of_foldlM (P := fun b => ∀ assignment ∈ view b, assignment.2.Fits) node
      (Toml.gives_foldlM (hstart ▸ fits_default name) fun entry hentry a ha b hb => ?_) b hb
    rcases gives_readKey haccept a entry b hb with rfl | hwrites
    · exact ha
    · exact hwrites.fits (fits_of_mem_given hnode entry hentry) ha

end Group

/-! ### The sections -/

theorem gives_run? (node : Node) :
    Gives (run? node) fun r => Holds "io" node (runLiterals r) := by
  change Gives (readGroup? (keysOf "io") _ Settings.default.run node) _
  refine gives_readGroup? ?_ (fun _ => ?_) (fun a k node hk => ?_) node
  · rfl
  · rfl
  have hk : k = "settle_delay_ms" ∨ k = "drain_poll_interval_ms" ∨ k = "startup_timeout_ms" := by
    simpa [keysOf, literals_eq, runLiterals] using hk
  rcases hk with rfl | rfl | rfl
  · exact gives_millis (fun n => by simp [runLiterals, writeAt]) node
  · exact gives_millis (fun n => by simp [runLiterals, writeAt]) node
  · exact gives_millis (fun n => by simp [runLiterals, writeAt]) node

theorem gives_sendIntervals? (node : Node) : Gives (sendIntervals? node) fun i =>
    Holds "send_interval_ms" node (sendIntervalLiterals i) := by
  change Gives (readGroup? (keysOf "send_interval_ms") _ Settings.default.sendIntervals node) _
  refine gives_readGroup? ?_ (fun _ => ?_) (fun a k node hk => ?_) node
  · rfl
  · rfl
  have hk : k = "t1_to_server" ∨ k = "server_to_t1" ∨ k = "soc_to_t1" ∨ k = "t1_to_soc" ∨
      k = "server_to_server" := by
    simpa [keysOf, literals_eq, sendIntervalLiterals] using hk
  rcases hk with rfl | rfl | rfl | rfl | rfl
  · exact gives_millis (fun n => by simp [sendIntervalLiterals, writeAt]) node
  · exact gives_millis (fun n => by simp [sendIntervalLiterals, writeAt]) node
  · exact gives_millis (fun n => by simp [sendIntervalLiterals, writeAt]) node
  · exact gives_millis (fun n => by simp [sendIntervalLiterals, writeAt]) node
  · exact gives_millis (fun n => by simp [sendIntervalLiterals, writeAt]) node

theorem gives_log? (node : Node) :
    Gives (log? node) fun l => Holds "logging" node (logLiterals l) := by
  change Gives (readGroup? (keysOf "logging") _ Settings.default.log node) _
  refine gives_readGroup? ?_ (fun _ => ?_) (fun a k node hk => ?_) node
  · rfl
  · rfl
  have hk : k = "level" ∨ k = "format" := by simpa [keysOf, literals_eq, logLiterals] using hk
  rcases hk with rfl | rfl
  · exact gives_text id (gives_text? node) fun s => by simp [logLiterals, writeAt]
  · exact gives_text LogFormat.name (gives_logFormat? node) fun f => by simp [logLiterals, writeAt]

theorem gives_evidence? (node : Node) :
    Gives (evidence? node) fun e => Holds "evidence" node (evidenceLiterals e) := by
  change Gives (readGroup? (keysOf "evidence") _ Settings.default.evidence node) _
  refine gives_readGroup? ?_ (fun _ => ?_) (fun a k node hk => ?_) node
  · rfl
  · rfl
  have hk : k = "capture_path" := by simpa [keysOf, literals_eq, evidenceLiterals] using hk
  subst hk
  exact gives_text id (gives_text? node) fun s => by simp [evidenceLiterals, writeAt]

/-- Reads one section of a document. -/
def readEntry (s : Settings) (entry : String × Node) : Option Settings :=
  match entry.1 with
  | "io" => do return { s with run := ← run? entry.2 }
  | "send_interval_ms" => do return { s with sendIntervals := ← sendIntervals? entry.2 }
  | "logging" => do return { s with log := ← log? entry.2 }
  | "evidence" => do return { s with evidence := ← evidence? entry.2 }
  | _ => some s

theorem ofEntries?_eq (entries : Entries) :
    ofEntries? entries = entries.foldlM readEntry .default :=
  rfl

/-- A section sets the values under its name and leaves those of the others. -/
theorem gives_readEntry (s : Settings) (entry : String × Node) : Gives (readEntry s entry) fun s' =>
    Holds entry.1 entry.2 (s'.literals entry.1) ∧
    ∀ name, name ≠ entry.1 → s'.literals name = s.literals name := by
  obtain ⟨name, node⟩ := entry
  rw [readEntry.eq_def]
  dsimp only
  split
  · exact Toml.gives_bind (gives_run? node) fun r hr =>
      Toml.gives_some ⟨hr, fun n hn => by simp [literals_eq, hn]⟩
  · exact Toml.gives_bind (gives_sendIntervals? node) fun i hi =>
      Toml.gives_some ⟨hi, fun n hn => by simp [literals_eq, hn]⟩
  · exact Toml.gives_bind (gives_log? node) fun l hl =>
      Toml.gives_some ⟨hl, fun n hn => by simp [literals_eq, hn]⟩
  · exact Toml.gives_bind (gives_evidence? node) fun e he =>
      Toml.gives_some ⟨he, fun n hn => by simp [literals_eq, hn]⟩
  · next hrun hsend hlog hevidence =>
    have hnone (s : Settings) : s.literals name = [] := by
      rw [literals_eq, if_neg hrun, if_neg hsend, if_neg hlog, if_neg hevidence]
    refine Toml.gives_some ⟨⟨fun key _ => ?_, fun _ key hkey => ?_, fun _ => ?_⟩, fun _ _ => rfl⟩
    · rw [value?, hnone, hnone]
    · rw [keysOf, hnone] at hkey
      cases hkey
    · rw [hnone]
      nofun

/-! ### Whole files -/

/-- A key that the document omits has its default. -/
theorem value?_of_omits {entries : Entries} {c : Settings} (h : ofEntries? entries = some c)
    {name key : String} (homits : Omits entries name key) :
    c.value? name key = Settings.default.value? name key := by
  rw [ofEntries?_eq] at h
  refine Toml.gives_foldlM (P := fun s => s.value? name key = Settings.default.value? name key) rfl
    (fun entry hentry s hs s' hs' => ?_) c h
  obtain ⟨hholds, hothers⟩ := gives_readEntry s entry s' hs'
  by_cases hname : name = entry.1
  · subst hname
    exact hholds.omitted key (homits entry.2 hentry)
  · rw [value?, hothers name hname]
    exact hs

/-- A key that the document gives has the value that its node says. -/
theorem value?_of_assigns {entries : Entries} {c : Settings} (h : ofEntries? entries = some c)
    (hfit : entries.Fit) {name key : String} (hkey : key ∈ keysOf name) {node : Node}
    (hassigns : Assigns entries name key node) :
    ∃ v, Says node v ∧ c.value? name key = some v := by
  obtain ⟨group, hgroup, hnode⟩ := hassigns
  obtain ⟨front, back, hsplit⟩ := List.append_of_mem hgroup
  have hnew := notMem_of_nodup (hsplit ▸ hfit.nodup)
  rw [ofEntries?_eq, hsplit] at h
  refine Toml.gives_foldlM_of_step (P := fun s => ∃ v, Says node v ∧ s.value? name key = some v)
    (fun s s' hs' => ?_) (fun entry hentry s hs s' hs' => ?_) c h
  · exact (gives_readEntry s (name, group) s' hs').1.said (hfit.fits _ hgroup) key hkey node hnode
  · obtain ⟨v, hsays, hv⟩ := hs
    have hne : name ≠ entry.1 := fun h => hnew (h ▸ List.mem_map_of_mem hentry)
    rw [value?, ← (gives_readEntry s entry s' hs').2 name hne] at hv
    exact ⟨v, hsays, hv⟩

/-- Settings from a document whose numbers have 64 bits fit into one. -/
theorem fits_of_ofEntries? {entries : Entries} {c : Settings} (h : ofEntries? entries = some c)
    (hfit : entries.Fit) (name : String) : ∀ assignment ∈ c.literals name, assignment.2.Fits := by
  rw [ofEntries?_eq] at h
  refine Toml.gives_foldlM (P := fun s => ∀ assignment ∈ s.literals name, assignment.2.Fits)
    (fits_default name) (fun entry hentry s hs s' hs' => ?_) c h
  obtain ⟨hholds, hothers⟩ := gives_readEntry s entry s' hs'
  by_cases hname : name = entry.1
  · subst hname
    exact hholds.fits (hfit.fits entry hentry)
  · rw [hothers name hname]
    exact hs

end Switchover.Settings
