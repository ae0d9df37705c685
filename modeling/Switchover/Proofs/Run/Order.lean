import Mathlib
import Switchover.Proofs.Run.Outcome

/-!
The order of events in a run. The fault is injected once at most, when the report of traffic was
seen and no look at or after the end of the wait came before that; the capture is examined once at
most, when the worker has finished, the fault went well and the switch is real. So a run that ends
before has done neither, and a run says that its capture was examined if it was, and that went well.
-/
namespace Switchover

/-- Whether a run ended before it came to the fault. -/
def EndsBeforeFault {σ : Type} : Except RunError (Finished σ) → Prop
  | .error (.setup _) | .error (.startupTimeout _) | .error .notReady => True
  | _ => False

/-- Whether a run ended before it came to the examination. -/
def EndsBeforeExamination {σ : Type} : Except RunError (Finished σ) → Prop
  | .error (.setup _) | .error (.startupTimeout _) | .error .notReady | .error (.action _)
  | .error (.capture _) | .error .workerCrashed => True
  | _ => False

namespace Config
variable {σ : Type} {d : Driver σ} {r : Request} {s : σ} {turns : List Turn}

/-- Whether the coordinator saw the report of traffic after the worker had made it, and had not
looked for it in vain when the time for it was over. -/
def SawReadyInTime (d : Driver σ) (r : Request) (s : σ) (turns : List Turn) : Prop :=
  ∃ before after, turns = before ++ .coordinator :: after ∧
    .ready ∈ ((initial s).run d r before).trace ∧
    (∃ deadline, ((initial s).run d r before).phase = .awaiting deadline) ∧
    ¬ TurnAt d r s before .coordinator fun c => ∃ deadline, c.phase = .awaiting deadline ∧
      deadline ≤ c.now

/-- Whether the capture was examined, and that went well. -/
def ExaminedWell (d : Driver σ) (r : Request) (s : σ) (turns : List Turn) : Prop :=
  TurnAt d r s turns .coordinator fun c => Happens .examine c (c.step d r .coordinator) ∧
    ∃ state, d.examine c.driver = .ok state

/-! ### What an event requires -/

/-- Once the time for the report is over, the next look ends the wait. -/
theorem sawReadyInTime_of_seen (h : WaitEnded d r s turns .seen) : SawReadyInTime d r s turns := by
  obtain ⟨before, after, hturns, deadline, hphase, hready⟩ := h
  refine ⟨before, after, hturns, (ready_iff before).mp hready, ⟨deadline, hphase⟩, fun hlate => ?_⟩
  have hpast : 2 ≤ ((initial s).run d r before).phase.stage := by
    refine hlate.stage_le ?_
    rintro turns ⟨deadline, hphase, hdeadline⟩
    exact stage_step_awaiting hphase (.inr (.inr hdeadline))
  rw [hphase, Phase.stage] at hpast
  omega

/-- The fault waits for the report of traffic. -/
theorem seen_of_injects (h : Injects r ((initial s).run d r turns)) :
    WaitEnded d r s turns .seen := by
  obtain ⟨faultAt, hphase, -⟩ := h
  have htold := told_run d r s turns
  simpa only [Told, hphase] using htold

/-- The examination waits for the worker. -/
theorem told_of_examines (h : Examines r ((initial s).run d r turns)) :
    WaitEnded d r s turns .seen ∧ FaultWentWell r ((initial s).run d r turns) ∧
      ((initial s).run d r turns).worker = .ended .finished := by
  obtain ⟨stoppedEarly, hphase, -⟩ := h
  have htold := told_run d r s turns
  simpa only [Told, hphase] using htold

/-! ### What an end tells -/

variable {outcome : Except RunError (Finished σ)}

theorem wait_of_endsBeforeFault {wait : WaitEnd} {last : LastMove σ} {calledOff : Bool}
    (h : EndsBeforeFault (outcomeOf d r wait last calledOff)) : wait ≠ .seen := by
  fun_cases outcomeOf d r wait last calledOff <;> simp_all [outcomeOf, EndsBeforeFault]

theorem not_endsBeforeExamination {c : Config σ} (hfault : FaultWentWell r c) (left : σ)
    (calledOff : Bool) :
    ¬ EndsBeforeExamination (outcomeOf d r .seen (.finish left) calledOff) := by
  rw [outcomeOf_seen hfault]
  dsimp only
  split_ifs
  · exact not_false
  · split <;> exact not_false

theorem not_inject_of_done (hphase : ((initial s).run d r turns).phase = .done outcome)
    (hbefore : EndsBeforeFault outcome) : .inject ∉ ((initial s).run d r turns).trace := by
  intro hmem
  obtain ⟨turn, before, after, rfl, hnew⟩ := (happened_iff turns).mp hmem
  have hseen : WaitEnded d r s (before ++ turn :: after) .seen :=
    TurnAt.append (seen_of_injects hnew.injects) _
  obtain ⟨last, -, rfl⟩ := outcome_of_waitEnded hphase hseen
  exact wait_of_endsBeforeFault hbefore rfl

theorem not_examine_of_done (hphase : ((initial s).run d r turns).phase = .done outcome)
    (hbefore : EndsBeforeExamination outcome) : .examine ∉ ((initial s).run d r turns).trace := by
  intro hmem
  obtain ⟨turn, before, after, rfl, hnew⟩ := (happened_iff turns).mp hmem
  obtain ⟨hseen, hfault, hworker⟩ := told_of_examines hnew.examines
  have hstage : ((initial s).run d r before).phase.stage < 6 := by
    obtain ⟨stoppedEarly, hexamining, -⟩ := hnew.examines
    simp [hexamining, Phase.stage]
  have hended := ended_of_worker before hworker hstage
  obtain ⟨last, hlast, rfl⟩ := outcome_of_waitEnded hphase (TurnAt.append hseen _)
  obtain rfl : last = .finish _ := hlast.eq (TurnAt.append hended _)
  exact not_endsBeforeExamination hfault _ _ hbefore

/-- A run that returns a capture has it examined, unless the switch is virtual. -/
theorem examined_eq {f : Finished σ} (hphase : ((initial s).run d r turns).phase = .done (.ok f)) :
    f.examined = !r.active.isVirtual := by
  have htold := told_run d r s turns
  simp only [Told, hphase] at htold
  rcases htold with ⟨why, -, h⟩ | ⟨wait, last, -, -, h⟩
  · cases h
  · fun_cases outcomeOf d r wait last ((initial s).run d r turns).calledOff <;>
      simp_all [outcomeOf]

/-- A run that returns a capture comes from the examination. -/
theorem examining_of_ok {f : Finished σ}
    (hphase : ((initial s).run d r turns).phase = .done (.ok f)) :
    TurnAt d r s turns .coordinator fun c => (∃ stoppedEarly, c.phase = .examining stoppedEarly) ∧
      ∃ f, (c.step d r .coordinator).phase = .done (.ok f) := by
  have hfirst : ¬ ∃ f, (initial s).phase = .done (.ok f) := by simp [initial]
  obtain ⟨turn, before, after, rfl, hno, hyes⟩ := exists_turnAt
    (q := fun c => ∃ f, c.phase = .done (.ok f)) hfirst ⟨f, hphase⟩
  cases turn with
  | clock => exact absurd hyes hno
  | worker =>
    obtain ⟨f, hdone⟩ := hyes
    exact absurd ⟨f, (works_workerStep d _).phase_eq.symm.trans hdone⟩ hno
  | coordinator =>
    refine ⟨before, after, rfl, ?_, hyes⟩
    have hl := leads_coordinatorStep d r ((initial s).run d r before)
    generalize (initial s).run d r before = c at hl hno hyes
    simp only [step] at hyes
    generalize c.coordinatorStep d r = c' at hl hyes
    obtain ⟨f, hdone⟩ := hyes
    cases hl with
    | wait => exact absurd ⟨f, hdone⟩ hno
    | skip hphase | examine hphase => exact ⟨_, hphase⟩
    | @join reason how =>
      -- after the join, only a run that failed is done
      rcases reason with _ | _ | _ | _ <;> cases how <;> cases hdone
    | proceed | inject | injectNothing =>
      rcases afterFault_eq r _ with ⟨window, -, h⟩ | ⟨-, h⟩ <;> rw [h] at hdone <;> cases hdone
    | _ => cases hdone

/-- A run that returns a capture had no trouble with its fault. -/
theorem faultWentWell_of_ok {f : Finished σ}
    (hphase : ((initial s).run d r turns).phase = .done (.ok f)) :
    FaultWentWell r ((initial s).run d r turns) := by
  refine TurnAt.lasts (q := FaultWentWell r) (examining_of_ok hphase) ?_
    fun turns turn h => h.mono (trace_prefix_step _ turn).subset
  rintro turns ⟨⟨stoppedEarly, hexamining⟩, -⟩
  have htold := told_run d r s turns
  simp only [Told, hexamining] at htold
  exact htold.2.1.mono (trace_prefix_step _ _).subset

/-- What a run says to have been examined, it has examined. -/
theorem examinedWell_of_examined {f : Finished σ}
    (hphase : ((initial s).run d r turns).phase = .done (.ok f)) (hexamined : f.examined = true) :
    ExaminedWell d r s turns := by
  have hvirtual : r.active.isVirtual = false := by simpa [hexamined] using examined_eq hphase
  refine (examining_of_ok hphase).mono fun turns => ?_
  rintro ⟨⟨stoppedEarly, hexamining⟩, f, hdone⟩
  simp only [Happens, step, coordinatorStep, hexamining, hvirtual] at hdone ⊢
  cases hstate : d.examine ((initial s).run d r turns).driver with
  | error why => simp [note, enter, hstate] at hdone
  | ok state => simp [note, enter, hstate]

/-! ### The order of a run -/

/-- However the turns are taken, a run injects its fault and examines its capture at most once each,
and neither before its time: the fault when traffic was seen to flow in time, the capture of a real
switch when the worker has finished and the fault went well. A run that ends before has not, and
one that returns a capture tells whether it was examined. -/
theorem run_orders (d : Driver σ) (r : Request) (s : σ) (turns : List Turn) :
    let c := (initial s).run d r turns
    (c.trace.count .inject ≤ 1 ∧ c.trace.count .examine ≤ 1) ∧
    (∀ turn, Happens .inject c (c.step d r turn) → SawReadyInTime d r s turns) ∧
    (∀ turn, Happens .examine c (c.step d r turn) →
      c.worker = .ended .finished ∧ FaultWentWell r c ∧ r.active.isVirtual = false) ∧
    (∀ outcome, c.phase = .done outcome →
      (EndsBeforeFault outcome → .inject ∉ c.trace) ∧
      (EndsBeforeExamination outcome → .examine ∉ c.trace) ∧
      ∀ f, outcome = .ok f → (f.examined = true ↔ ExaminedWell d r s turns)) := by
  intro c
  refine ⟨⟨?_, ?_⟩, fun turn hnew => ?_, fun turn hnew => ?_, fun outcome hphase => ⟨?_, ?_, ?_⟩⟩
  · exact count_le_one rfl turns
  · exact count_le_one rfl turns
  · exact sawReadyInTime_of_seen (seen_of_injects hnew.injects)
  · obtain ⟨-, hfault, hworker⟩ := told_of_examines hnew.examines
    obtain ⟨stoppedEarly, -, hvirtual⟩ := hnew.examines
    exact ⟨hworker, hfault, hvirtual⟩
  · exact not_inject_of_done hphase
  · exact not_examine_of_done hphase
  · rintro f rfl
    refine ⟨examinedWell_of_examined hphase, ?_⟩
    rintro ⟨before, after, -, hnew, -⟩
    obtain ⟨stoppedEarly, -, hvirtual⟩ := hnew.examines
    rw [examined_eq hphase, hvirtual, Bool.not_false]

/-- A fault that goes well, before the worker finishes and the capture is examined. -/
theorem run_orders_examined :
    let d : Driver Bool :=
      { generate := fun _ _ => .ok false
        act := fun _ reported => if reported then .finish true else .report true
        examine := .ok
        results := fun _ => none }
    let r : Request :=
      ⟨⟨"upper-tor", []⟩, .t1ToServer, some (.ok ()), none, ⟨⟨0⟩, ⟨1⟩, ⟨10⟩⟩⟩
    let flows : List Turn := [.coordinator, .worker, .coordinator]
    let joined : List Turn := flows ++ [.coordinator, .worker, .coordinator]
    SawReadyInTime d r false flows ∧ FaultWentWell r ((initial false).run d r joined) ∧
      ExaminedWell d r false (joined ++ [.coordinator]) := by
  intro d r flows joined
  have hinject : Happens .inject ((initial false).run d r flows)
      (((initial false).run d r flows).step d r .coordinator) := Nat.zero_lt_one
  have hexamine : Happens .examine ((initial false).run d r joined)
      (((initial false).run d r joined).step d r .coordinator) := Nat.zero_lt_one
  have hphase : ((initial false).run d r (joined ++ [.coordinator])).phase =
      .done (.ok ⟨true, false, true⟩) := rfl
  obtain ⟨-, hfault, -⟩ := run_orders d r false flows
  obtain ⟨-, -, hexamination, -⟩ := run_orders d r false joined
  obtain ⟨-, -, -, hdone⟩ := run_orders d r false (joined ++ [.coordinator])
  exact ⟨hfault _ hinject, (hexamination _ hexamine).2.1, ((hdone _ hphase).2.2 _ rfl).mp rfl⟩

end Config

end Switchover
