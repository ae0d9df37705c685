import Mathlib
import Switchover.Proofs.CommandLine.Packets

/-!
Ranges of lost packets on a command line. An argument for losses is two numbers of 64 bits with two
dots between them, of which the second is not the smaller one. A simulation loses just the packets
from the first to the second number of some argument, however many arguments there are and whether
or not their ranges overlap.
-/
namespace Switchover.CommandLine

open Text (readUInt64_trim_eq_ok)
open Json (eq_ok_of_toOption mapM_eq_ok)

/-- The texts that are read as a range of ids. -/
theorem lossRange_eq_ok {s : String} {r : IdRange} :
    lossRange s = .ok r ↔
      r.first ≤ r.last ∧ SpellsPair ['.', '.'] s.toList r.first.toNat r.last.toNat := by
  rw [lossRange]
  refine (readPair_eq_ok (fun _ _ => readUInt64_trim_eq_ok) (fun _ _ => readUInt64_trim_eq_ok)
    (by decide) (by decide) (by decide)).trans ?_
  constructor
  · rintro ⟨first, last, hspells, hjudge⟩
    split_ifs at hjudge with hempty
    obtain rfl := Except.ok.inj hjudge
    exact ⟨UInt64.not_lt.mp hempty, hspells⟩
  · rintro ⟨hle, hspells⟩
    exact ⟨r.first, r.last, hspells, if_neg (UInt64.not_lt.mpr hle)⟩

/-- Some text of a list is read as a value of a kind if some value that the list is read as is. -/
theorem exists_mem_texts_iff {α ε : Type} {read : String → Except ε α} {texts : List String}
    {values : List α} (h : texts.mapM read = .ok values) (P : α → Prop) :
    (∃ s ∈ texts, ∃ a, read s = .ok a ∧ P a) ↔ ∃ a ∈ values, P a := by
  have hread := mapM_eq_ok.mp h
  clear h
  induction hread with
  | nil => simp
  | cons hs _ ih => simp [hs, ih]

namespace SimulateCommand

/-- The command line that gives losses, one option for each text. -/
theorem read_losses {texts : List String} {ranges : List IdRange}
    (h : texts.mapM lossRange = .ok ranges) :
    read ("simulate" :: texts.map (attached "loss")) = .ok
      ⟨none, .simulate { start with losses := ranges, servers := defaultServers }⟩ :=
  read_repeated (fun c r => { c with losses := c.losses ++ [r] })
    (fun ranges => { start with losses := ranges }) (by decide) rfl rfl (fun _ _ => rfl)
    (fun _ => rfl) h

/-- A text is read as a range exactly if it spells the ends of one. Any texts that are accepted as
arguments are the ranges of a simulation, which loses a packet exactly if some of them spells two
numbers with its id from the one to the other. -/
theorem losses_as_spelled :
    (∀ s r, lossRange s = .ok r ↔
      r.first ≤ r.last ∧ SpellsPair ['.', '.'] s.toList r.first.toNat r.last.toNat) ∧
    ∀ (texts : List String) ranges, texts.mapM lossRange = .ok ranges →
      ∃ c, read ("simulate" :: texts.map (attached "loss")) = .ok ⟨none, .simulate c⟩ ∧
        c.plan.losses = ranges ∧ ∀ id, c.plan.isLost id = true ↔
          ∃ s ∈ texts, ∃ first last : UInt64,
            SpellsPair ['.', '.'] s.toList first.toNat last.toNat ∧ first ≤ id ∧ id ≤ last := by
  refine ⟨fun s r => lossRange_eq_ok, fun texts ranges h => ⟨_, read_losses h, rfl, fun id => ?_⟩⟩
  refine (Plan.isLost_iff.trans (exists_mem_texts_iff h _).symm).trans ?_
  refine exists_congr fun s => and_congr_right fun _ => ?_
  constructor
  · rintro ⟨r, hread, hid⟩
    exact ⟨r.first, r.last, (lossRange_eq_ok.mp hread).2, hid⟩
  · rintro ⟨first, last, hspells, hfirst, hlast⟩
    have hle := UInt64.le_trans hfirst hlast
    exact ⟨⟨first, last⟩, lossRange_eq_ok.mpr ⟨hle, hspells⟩, hfirst, hlast⟩

/-- Two ranges that overlap, one of them with blanks, a sign and zeros, and the greatest id. -/
theorem losses_as_spelled_overlapping :
    let texts : List String :=
      ["40..55", " +50 .. 0060\t", "18446744073709551615..18446744073709551615"]
    let ranges : List IdRange :=
      [⟨40, 55⟩, ⟨50, 60⟩, ⟨18446744073709551615, 18446744073709551615⟩]
    texts.mapM lossRange = .ok ranges ∧
      ∃ c, read ("simulate" :: texts.map (attached "loss")) = .ok ⟨none, .simulate c⟩ ∧
        c.plan.losses = ranges ∧ c.plan.isLost 57 = true := by
  intro texts ranges
  have h : texts.mapM lossRange = .ok ranges := eq_ok_of_toOption (by decide +kernel)
  obtain ⟨c, hread, hlosses, hlost⟩ := losses_as_spelled.2 texts ranges h
  have hsecond : lossRange " +50 .. 0060\t" = .ok ⟨50, 60⟩ :=
    eq_ok_of_toOption (by decide +kernel)
  have hspells := ((losses_as_spelled.1 _ _).mp hsecond).2
  exact ⟨h, c, hread, hlosses, (hlost 57).mpr
    ⟨_, by simp [texts], 50, 60, hspells, by decide, by decide⟩⟩

end SimulateCommand

end Switchover.CommandLine
