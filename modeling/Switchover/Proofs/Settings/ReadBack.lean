import Mathlib
import Switchover.CommandLine.Run
import Switchover.Proofs.Settings.Values
import Switchover.Proofs.Toml.Documents

/-!
Settings that are shown and read again. What is shown has all sections and keys, and it is read as
it is: strings in any case, and numbers because those that come from a file fit into what a file can
hold.
-/
namespace Switchover.Settings

open Toml (Entries Literal Node)
open CommandLine (Command)
open Files (Machine)

/-! ### Sections that are shown -/

/-- The entries of a section that is shown. -/
def shownEntries (l : List (String × Literal)) : Entries :=
  l.map fun assignment => (assignment.1, assignment.2.node)

theorem millis?_toNat (n : UInt64) : millis? (.int n.toNat) = some n := by simp [millis?]

theorem logFormat?_name (f : LogFormat) : logFormat? (.text f.name) = some f := by
  cases f <;> rfl

section Shown

variable {α β : Type} {fields : List String} {accept : α → String → Node → Option α} {a b c : α}

theorem read_eq_some {read : Node → Option β} {node : Node} {v : β} (h : read node = some v)
    (set : β → α) : (do return set (← read node)) = some (set v) := by
  rw [h]
  rfl

theorem readGroup?_shown {l : List (String × Literal)}
    (h : readGroup?.fill fields accept a (shownEntries l) = some c) :
    readGroup? fields accept a (.table .headed (shownEntries l)) = some c :=
  h

theorem fill_cons {k : String} {v : Literal} {l : List (String × Literal)}
    (h : accept a k v.node = some b) (hk : k ∈ fields)
    (hrest : readGroup?.fill fields accept b (shownEntries l) = some c) :
    readGroup?.fill fields accept a (shownEntries ((k, v) :: l)) = some c := by
  rw [readGroup?.fill, shownEntries, List.map_cons, List.foldlM_cons]
  dsimp only
  rw [if_pos hk, h]
  exact hrest

end Shown

theorem run?_shown (r : RunSettings) :
    run? (.table .headed (shownEntries (runLiterals r))) = some r := by
  refine readGroup?_shown ?_
  refine fill_cons (read_eq_some (millis?_toNat _) _) (by decide) ?_
  refine fill_cons (read_eq_some (millis?_toNat _) _) (by decide) ?_
  refine fill_cons (read_eq_some (millis?_toNat _) _) (by decide) ?_
  rfl

theorem sendIntervals?_shown (i : SendIntervals) :
    sendIntervals? (.table .headed (shownEntries (sendIntervalLiterals i))) = some i := by
  refine readGroup?_shown ?_
  refine fill_cons (read_eq_some (millis?_toNat _) _) (by decide) ?_
  refine fill_cons (read_eq_some (millis?_toNat _) _) (by decide) ?_
  refine fill_cons (read_eq_some (millis?_toNat _) _) (by decide) ?_
  refine fill_cons (read_eq_some (millis?_toNat _) _) (by decide) ?_
  refine fill_cons (read_eq_some (millis?_toNat _) _) (by decide) ?_
  rfl

theorem log?_shown (l : LogSettings) :
    log? (.table .headed (shownEntries (logLiterals l))) = some l := by
  have hlevel : text? (Literal.text l.level).node = some l.level := rfl
  refine readGroup?_shown ?_
  refine fill_cons (read_eq_some hlevel _) (by decide) ?_
  refine fill_cons (read_eq_some (logFormat?_name _) _) (by decide) ?_
  rfl

theorem evidence?_shown (e : EvidenceSettings) :
    evidence? (.table .headed (shownEntries (evidenceLiterals e))) = some e := by
  have hpath : text? (Literal.text e.capturePath).node = some e.capturePath := rfl
  refine readGroup?_shown ?_
  refine fill_cons (read_eq_some hpath _) (by decide) ?_
  rfl

theorem foldlM_readEntry_cons {s s' c : Settings} {entry : String × Node} {entries : Entries}
    (h : readEntry s entry = some s') (hrest : entries.foldlM readEntry s' = some c) :
    (entry :: entries).foldlM readEntry s = some c := by
  rw [List.foldlM_cons, h]
  exact hrest

/-- The names of the sections in order. -/
def sectionNames : List String := ["io", "send_interval_ms", "logging", "evidence"]

theorem sections_eq (c : Settings) :
    c.sections = sectionNames.map fun name => ⟨name, c.literals name⟩ :=
  rfl

theorem map_fst_literals (c : Settings) (name : String) :
    (c.literals name).map (·.1) = keysOf name := by
  rw [keysOf, literals_eq, literals_eq]
  split_ifs <;> rfl

/-- Settings whose numbers fit are read back from the text that shows them. -/
theorem ofText?_render {c : Settings}
    (h : ∀ name, ∀ assignment ∈ c.literals name, assignment.2.Fits) :
    ofText? c.render = some c := by
  have hkeys : ∀ name ∈ sectionNames, Toml.IsBare name ∧ (∀ key ∈ keysOf name, Toml.IsBare key) ∧
      (keysOf name).Nodup := by
    decide +kernel
  have hplain : ∀ t ∈ c.sections, t.IsPlain := by
    rw [sections_eq, List.forall_mem_map]
    intro name hname
    obtain ⟨hbare, hkeys, hnodup⟩ := hkeys name hname
    rw [← map_fst_literals c] at hkeys hnodup
    exact ⟨hbare, List.forall_mem_map.mp hkeys, hnodup, h name⟩
  have hnodup : (c.sections.map Toml.Section.name).Nodup := by
    change sectionNames.Nodup
    decide
  have hentries : ofEntries? (c.sections.map Toml.Section.entry) = some c := by
    have hsections : c.sections.map Toml.Section.entry =
        [("io", .table .headed (shownEntries (runLiterals c.run))),
          ("send_interval_ms",
            .table .headed (shownEntries (sendIntervalLiterals c.sendIntervals))),
          ("logging", .table .headed (shownEntries (logLiterals c.log))),
          ("evidence", .table .headed (shownEntries (evidenceLiterals c.evidence)))] :=
      rfl
    rw [ofEntries?_eq, hsections]
    refine foldlM_readEntry_cons (read_eq_some (run?_shown c.run) _) ?_
    refine foldlM_readEntry_cons (read_eq_some (sendIntervals?_shown c.sendIntervals) _) ?_
    refine foldlM_readEntry_cons (read_eq_some (log?_shown c.log) _) ?_
    refine foldlM_readEntry_cons (read_eq_some (evidence?_shown c.evidence) _) ?_
    rfl
  rw [ofText?, render, Toml.read?_render hplain hnodup]
  exact hentries

/-- The settings that are shown are the settings. Of the settings that any text gives, every key
that the text leaves out has its default and every key that it gives has the value given, and the
text that the command for showing them prints is read as the same settings again. -/
theorem shown_settings_read_back {text : String} {c : Settings} (h : ofText? text = some c) :
    (∃ entries, Toml.read? text = some entries ∧
      (∀ name key, Omits entries name key →
        c.value? name key = Settings.default.value? name key) ∧
      ∀ name key node, key ∈ keysOf name → Assigns entries name key node →
        ∃ v, Says node v ∧ c.value? name key = some v) ∧
    ∀ {m : Type → Type} [Monad m] (machine : Machine m) (pick : Nat → Nat), ∃ shown,
      Command.showConfig.run machine pick c = pure (.success shown) ∧ ofText? shown = some c := by
  obtain ⟨entries, hread, hentries⟩ := Option.bind_eq_some_iff.mp h
  have hfit := Toml.gives_read? text entries hread
  refine ⟨⟨entries, hread, fun name key => value?_of_omits hentries, fun name key node hkey =>
    value?_of_assigns hentries hfit hkey⟩, fun machine pick => ?_⟩
  exact ⟨c.render, rfl, ofText?_render (fits_of_ofEntries? hentries hfit)⟩

set_option maxRecDepth 20000 in
/-- A file with a section given as a list, a dotted key, a number in another base, a control
character and quotes of both kinds. -/
theorem shown_settings_read_back_partly :
    let text := "evidence = [\"/tmp/a \\\"b\\\"\"]\nio.settle_delay_ms = 0xFF\n" ++
      "[logging]\nlevel = \"\\u0007\x27\x27\x27\\n\"\n"
    ∃ c, ofText? text = some c ∧ c.value? "io" "settle_delay_ms" = some (.nat 255) ∧
      c.value? "logging" "level" = some (.text "\x07\x27\x27\x27\n") ∧
      c.value? "evidence" "capture_path" = some (.text "/tmp/a \"b\"") ∧
      c.value? "io" "startup_timeout_ms" = some (.nat 60000) ∧
      ∃ shown, Command.showConfig.run .ofDesk id c = pure (.success shown) ∧
        ofText? shown = some c := by
  intro text
  have htext : ofText? text = some { Settings.default with
      run := { Settings.default.run with settleDelay := 255 }
      log := { Settings.default.log with level := "\x07\x27\x27\x27\n" }
      evidence := ⟨"/tmp/a \"b\""⟩ } := by
    decide +kernel
  have hread : Toml.read? text = some
      [("evidence", .list [.text "/tmp/a \"b\""]),
        ("io", .table ⟨true, true, false⟩ [("settle_delay_ms", .int 255)]),
        ("logging", .table .headed [("level", .text "\x07\x27\x27\x27\n")])] := by
    cbv
  obtain ⟨⟨entries, hread', hdefault, hgiven⟩, hshow⟩ := shown_settings_read_back htext
  obtain rfl := Option.some.inj (hread'.symm.trans hread)
  refine ⟨_, htext, ?_, ?_, ?_, hdefault _ _ (by decide), hshow _ _⟩
  · obtain ⟨_, ⟨_⟩, hv⟩ := hgiven "io" "settle_delay_ms" (.int 255) (by decide)
      ⟨_, .tail _ (.head _), .head _⟩
    exact hv
  · obtain ⟨_, ⟨_⟩, hv⟩ := hgiven "logging" "level" (.text "\x07\x27\x27\x27\n") (by decide)
      ⟨_, .tail _ (.tail _ (.head _)), .head _⟩
    exact hv
  · obtain ⟨_, ⟨_⟩, hv⟩ := hgiven "evidence" "capture_path" (.text "/tmp/a \"b\"") (by decide)
      ⟨_, .head _, .head _⟩
    exact hv

end Switchover.Settings
