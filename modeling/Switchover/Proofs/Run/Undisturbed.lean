import Mathlib
import Switchover.Run.Schedule

/-!
Undisturbed runs. The schedule says whose turn is next, so an undisturbed run is one of the runs: it
takes the turns that the schedule gives it, until there is none left. A run to which the schedule
always gives another turn leads nowhere.
-/
namespace Switchover

namespace Config
variable {σ : Type} {d : Driver σ} {r : Request} {c c' : Config σ} {turns : List Turn}

/-- Whether some turns are those that the schedule gives to a run until there is none left. -/
def Undisturbed (d : Driver σ) (r : Request) (c : Config σ) : List Turn → Prop
  | [] => c.nextTurn d r = none
  | turn :: turns => c.nextTurn d r = some turn ∧ Undisturbed d r (c.step d r turn) turns

theorem advance_of_none {hc' : Scheduled d r c c'} (h : c'.nextTurn d r = none) :
    advance d r c ⟨c', hc'⟩ = pure (.inr (some ⟨c', hc', h⟩)) := by
  rw [advance]
  split
  · rfl
  · next hturn => nomatch h.symm.trans hturn

theorem advance_of_some {hc' : Scheduled d r c c'} {turn : Turn} (h : c'.nextTurn d r = some turn) :
    advance d r c ⟨c', hc'⟩ = pure (.inl ⟨c'.step d r turn, hc'.turn h⟩) := by
  rw [advance]
  split
  · next hturn => nomatch h.symm.trans hturn
  · next hturn =>
    obtain rfl := Option.some.inj (h.symm.trans hturn)
    rfl

/-- The turns that are left bring a run to rest, from wherever the schedule has brought it. -/
theorem repeatM_of_undisturbed (hc' : Scheduled d r c c') (h : c'.Undisturbed d r turns) :
    ∃ rest, repeatM (advance d r c) ⟨c', hc'⟩ = pure (some rest) ∧
      rest.final = c'.run d r turns := by
  -- the loop opens one turn at a time, so the induction is on the turns that are left
  induction turns generalizing c' with
  | nil =>
    rw [Undisturbed] at h
    rw [repeatM_eq_of_monadTail, repeatM.body, advance_of_none h, pure_bind]
    exact ⟨_, rfl, rfl⟩
  | cons turn turns ih =>
    obtain ⟨hturn, hrest⟩ := h
    rw [repeatM_eq_of_monadTail, repeatM.body, advance_of_some hturn, pure_bind]
    exact ih (hc'.turn hturn) hrest

theorem settle_of_undisturbed (h : c.Undisturbed d r turns) :
    ∃ rest, c.settle d r = some rest ∧ rest.final = c.run d r turns :=
  repeatM_of_undisturbed .start h

/-- Before its turns that are left, a run has taken those that the schedule gave it. -/
theorem Scheduled.exists_undisturbed (h : Scheduled d r c c') (left : List Turn)
    (hc' : c'.Undisturbed d r left) : ∃ turns, c.Undisturbed d r turns := by
  induction h generalizing left with
  | start => exact ⟨left, hc'⟩
  | turn _ hturn ih => exact ih (_ :: left) ⟨hturn, hc'⟩

theorem Rest.exists_undisturbed (rest : Rest d r c) : ∃ turns, c.Undisturbed d r turns :=
  rest.scheduled.exists_undisturbed [] rest.idle

theorem outcome?_eq_some {outcome : Except RunError (Finished σ)} :
    c.outcome? = some outcome ↔ c.phase = .done outcome := by
  rw [outcome?]
  split <;> simp_all

end Config

namespace Driver
variable {σ : Type} {d : Driver σ} {r : Request} {s : σ} {turns : List Turn}

theorem conduct_eq (h : (Config.initial s).Undisturbed d r turns) :
    d.conduct r s = (Config.initial s).run d r turns := by
  obtain ⟨rest, hsettle, hfinal⟩ := Config.settle_of_undisturbed h
  rw [conduct, hsettle]
  exact hfinal

/-- An undisturbed run that leads somewhere comes to an end. -/
theorem exists_undisturbed (h : d.conduct r s ≠ Config.initial s) :
    ∃ turns, (Config.initial s).Undisturbed d r turns := by
  cases hsettle : (Config.initial s).settle d r with
  | none =>
    rw [conduct, hsettle] at h
    exact absurd rfl h
  | some rest => exact rest.exists_undisturbed

/-- An undisturbed run is one of the runs. -/
theorem conduct_eq_run (d : Driver σ) (r : Request) (s : σ) :
    ∃ turns, d.conduct r s = (Config.initial s).run d r turns := by
  by_cases h : d.conduct r s = Config.initial s
  · exact ⟨[], h⟩
  · obtain ⟨turns, hturns⟩ := exists_undisturbed h
    exact ⟨turns, conduct_eq hturns⟩

end Driver

end Switchover
