import Mathlib
import Switchover.Proofs.Run.Cancellation

/-!
What a run returns. Many things can go wrong in one run, in any order; what it returns is the first
of these that applies: the traffic could not be prepared; the worker ended before it was seen to
report traffic, and then the way it ended tells; the wait for the report expired; the fault failed;
the worker crashed; it failed; the capture could not be examined. What the worker did is told by its
last move, and how the wait ended by the look that ended it. Both happen only once.
-/
namespace Switchover

/-- What a run returns whose traffic was prepared, if the coordinator cancelled it or not; the rows
are tried from above. -/
def outcomeOf {σ : Type} (d : Driver σ) (r : Request) (wait : WaitEnd) (last : LastMove σ)
    (calledOff : Bool) : Except RunError (Finished σ) :=
  match wait, r.fault, last with
  | .released, _, .crash => .error .workerCrashed
  | .released, _, .fail why => .error (.capture why)
  | .released, _, .finish _ => .error .notReady
  | .expired, _, _ => .error (.startupTimeout r.timing.startup)
  | .seen, some (.error why), _ => .error (.action why)
  | .seen, _, .crash => .error .workerCrashed
  | .seen, _, .fail why => .error (.capture why)
  | .seen, _, .finish left =>
    if r.active.isVirtual then .ok ⟨left, calledOff, false⟩
    else
      match d.examine left with
      | .error why => .error (.flowExamination why)
      | .ok driver => .ok ⟨driver, calledOff, true⟩

namespace Config
variable {σ : Type} {d : Driver σ} {r : Request} {s : σ} {c c' : Config σ} {turns : List Turn}

/-- What has happened by the time that the coordinator is in a phase. -/
def Told (d : Driver σ) (r : Request) (s : σ) (turns : List Turn) (c : Config σ) : Prop :=
  match c.phase with
  | .starting => True
  | .awaiting _ => ∃ state, d.generate r.direction s = .ok state
  | .settling _ => WaitEnded d r s turns .seen
  | .draining _ _ _ => WaitEnded d r s turns .seen ∧ FaultWentWell r c
  | .joining .released => WaitEnded d r s turns .released
  | .joining .expired => WaitEnded d r s turns .expired
  | .joining (.faultFailed why) => WaitEnded d r s turns .seen ∧ r.fault = some (.error why)
  | .joining (.over _) => WaitEnded d r s turns .seen ∧ FaultWentWell r c
  | .examining _ =>
    WaitEnded d r s turns .seen ∧ FaultWentWell r c ∧ c.worker = .ended .finished
  | .done outcome =>
    (∃ why, d.generate r.direction s = .error why ∧ outcome = .error (.setup why)) ∨
    ∃ wait last, WaitEnded d r s turns wait ∧ Ended d r s turns last ∧
      outcome = outcomeOf d r wait last c.calledOff

theorem outcomeOf_seen {last : LastMove σ} {calledOff : Bool} (h : FaultWentWell r c) :
    outcomeOf d r .seen last calledOff =
      match last with
      | .crash => .error .workerCrashed
      | .fail why => .error (.capture why)
      | .finish left =>
        if r.active.isVirtual then .ok ⟨left, calledOff, false⟩
        else
          match d.examine left with
          | .error why => .error (.flowExamination why)
          | .ok driver => .ok ⟨driver, calledOff, true⟩ := by
  rcases h with h | ⟨h, -⟩ <;> cases last <;> simp only [outcomeOf, h]

/-- What has happened is not undone, and a party that only works or a clock that goes on tells
nothing new. -/
theorem Told.concat (h : Told d r s turns c) (turn : Turn) (hphase : c'.phase = c.phase)
    (hcalledOff : c'.calledOff = c.calledOff) (htrace : c.trace ⊆ c'.trace)
    (hworker : ∀ how, c.worker = .ended how → c'.worker = .ended how) :
    Told d r s (turns ++ [turn]) c' := by
  simp only [Told, hphase, hcalledOff] at h ⊢
  split at h
  · trivial
  · exact h
  · exact TurnAt.concat h turn
  · exact ⟨h.1.concat turn, h.2.mono htrace⟩
  · exact TurnAt.concat h turn
  · exact TurnAt.concat h turn
  · exact ⟨h.1.concat turn, h.2⟩
  · exact ⟨h.1.concat turn, h.2.mono htrace⟩
  · exact ⟨h.1.concat turn, h.2.1.mono htrace, hworker _ h.2.2⟩
  · rcases h with h | ⟨wait, last, hwait, hended, houtcome⟩
    · exact .inl h
    · exact .inr ⟨wait, last, hwait.concat turn, hended.concat turn, houtcome⟩

/-- The fault is over, and the worker gets its time or is joined as it is. -/
theorem told_afterFault (hseen : WaitEnded d r s turns .seen) (hfault : FaultWentWell r c) :
    Told d r s turns (c.afterFault r) := by
  rcases afterFault_eq r c with ⟨window, -, h⟩ | ⟨-, h⟩ <;> rw [h]
  · exact ⟨hseen, hfault.mono (List.Subset.refl _)⟩
  · exact ⟨hseen, hfault.mono (List.Subset.refl _)⟩

/-- A run whose worker has been joined returns what its wait and the worker's end amount to. -/
theorem told_settleJoin {reason : JoinReason} {how : WorkerEnd}
    (hphase : c.phase = .joining reason) (hworker : c.worker = .ended how)
    (hended : Ended d r s turns (how.lastMove c.driver)) (h : Told d r s turns c) :
    Told d r s turns ((c.note .join).enter (settleJoin r how reason)) := by
  rcases reason with _ | _ | why | stoppedEarly <;> simp only [Told, hphase] at h
  · cases how <;> exact .inr ⟨.released, _, h, hended, rfl⟩
  · exact .inr ⟨.expired, _, h, hended, rfl⟩
  · exact .inr ⟨.seen, _, h.1, hended, by simp only [outcomeOf, h.2]⟩
  · cases how with
    | finished => exact ⟨h.1, h.2.mono (List.subset_append_left ..), hworker⟩
    | failed | crashed => exact .inr ⟨.seen, _, h.1, hended, by rw [outcomeOf_seen h.2]; rfl⟩

theorem told_run (d : Driver σ) (r : Request) (s : σ) (turns : List Turn) :
    Told d r s turns ((initial s).run d r turns) := by
  induction turns using List.reverseRecOn with
  | nil => trivial
  | append_singleton turns turn ih =>
    have hsound := sound_run d r s turns
    have hended (how) (h : ((initial s).run d r turns).worker = .ended how) :=
      ended_of_worker turns h
    have hflag (b) (h : ((initial s).run d r turns).phase.calledOff? = some b) :=
      calledOff_of_phase turns h
    have hend (wait) (h : ((initial s).run d r turns).Finds wait) :
        WaitEnded d r s (turns ++ [.coordinator]) wait := .last h
    rw [run_concat]
    generalize (initial s).run d r turns = c at ih hsound hended hflag hend
    cases turn with
    | clock =>
      exact ih.concat _ rfl rfl (List.Subset.refl _) fun _ h => h
    | worker =>
      have hw := works_workerStep d c
      refine ih.concat _ hw.phase_eq hw.calledOff_eq hw.trace_prefix.subset fun how h => ?_
      rw [step, hw.eq_of_ended h]
      exact h
    | coordinator =>
      have hl := leads_coordinatorStep d r c
      have ih' := ih.concat .coordinator rfl rfl (List.Subset.refl _) fun _ h => h
      rw [step]
      generalize c.coordinatorStep d r = c' at hl
      cases hl with
      | wait => exact ih'
      | refuse hphase hgenerate =>
        simp only [Sound, hphase] at hsound
        exact .inl ⟨_, hsound.2.1 ▸ hgenerate, rfl⟩
      | start hphase hgenerate =>
        simp only [Sound, hphase] at hsound
        exact ⟨_, hsound.2.1 ▸ hgenerate⟩
      | settle hphase hready => exact hend .seen ⟨_, hphase, hready⟩
      | proceed hphase hready hfault =>
        exact told_afterFault (hend .seen ⟨_, hphase, hready⟩) (.inl hfault)
      | release hphase hready hhow => exact hend .released ⟨_, _, hphase, hready, hhow⟩
      | expire hphase hready hrunning hlate =>
        exact hend .expired ⟨_, hphase, hready, hrunning, hlate⟩
      | inject hphase hdue hfault =>
        simp only [Told, hphase] at ih'
        exact told_afterFault ih' (.inr ⟨hfault, mem_trace_note c .inject⟩)
      | injectFails hphase hdue hfault =>
        simp only [Told, hphase] at ih'
        exact ⟨ih', hfault⟩
      | injectNothing hphase hdue hfault =>
        simp only [Told, hphase] at ih'
        exact told_afterFault ih' (.inl hfault)
      | drained hphase | look hphase =>
        simp only [Told, hphase] at ih'
        exact ih'
      | cut hphase =>
        simp only [Told, hphase] at ih'
        exact ⟨ih'.1, ih'.2.mono (List.subset_append_left ..)⟩
      | join hphase hhow =>
        have hlow : c.phase.stage < 6 := by simp [hphase, Phase.stage]
        exact told_settleJoin hphase hhow ((hended _ hhow hlow).concat _) ih'
      | skip hphase hvirtual =>
        have hlow : c.phase.stage < 6 := by simp [hphase, Phase.stage]
        have hcalledOff := hflag _ (by rw [hphase]; rfl)
        simp only [Told, hphase] at ih'
        refine .inr ⟨.seen, _, ih'.1, (hended _ ih'.2.2 hlow).concat _, ?_⟩
        rw [outcomeOf_seen ih'.2.1]
        simp [hvirtual, enter, ← hcalledOff, calledOff, WorkerEnd.lastMove]
      | examineFails hphase hvirtual hexamine | examine hphase hvirtual hexamine =>
        have hlow : c.phase.stage < 6 := by simp [hphase, Phase.stage]
        have hcalledOff := hflag _ (by rw [hphase]; rfl)
        simp only [Told, hphase] at ih'
        refine .inr ⟨.seen, _, ih'.1, (hended _ ih'.2.2 hlow).concat _, ?_⟩
        rw [outcomeOf_seen ih'.2.1]
        simp [hvirtual, hexamine, enter, note, ← hcalledOff, calledOff, WorkerEnd.lastMove]

/-! ### What a run returns -/

/-- The coordinator only waits for traffic that was prepared. -/
theorem generated_of_waitEnded {wait : WaitEnd} (h : WaitEnded d r s turns wait) :
    ∃ state, d.generate r.direction s = .ok state := by
  obtain ⟨before, after, -, hfinds⟩ := h
  obtain ⟨deadline, hphase⟩ := hfinds.awaits
  have htold := told_run d r s before
  simpa only [Told, hphase] using htold

/-- A worker that ended without being seen to report had not reported at all. -/
theorem not_ready_of_released (h : WaitEnded d r s turns .released) :
    .ready ∉ ((initial s).run d r turns).trace := by
  have hstays (turns : List Turn) (turn : Turn)
      (h : (∃ how, ((initial s).run d r turns).worker = .ended how) ∧
        .ready ∉ ((initial s).run d r turns).trace) :
      (∃ how, (((initial s).run d r turns).step d r turn).worker = .ended how) ∧
        .ready ∉ (((initial s).run d r turns).step d r turn).trace := by
    have hsound := sound_run d r s turns
    generalize (initial s).run d r turns = c at h hsound
    obtain ⟨⟨how, hended⟩, hno⟩ := h
    cases turn with
    | clock => exact ⟨⟨how, hended⟩, hno⟩
    | worker =>
      rw [step, (works_workerStep d c).eq_of_ended hended]
      exact ⟨⟨how, hended⟩, hno⟩
    | coordinator =>
      have hl := leads_coordinatorStep d r c
      obtain ⟨-, news, htrace, -, hnews⟩ := hl.exists_news
      have hnone : .ready ∉ news := fun hmem => by simpa [Event.stage?] using hnews _ hmem
      rcases hl.worker_eq with hworker | ⟨hphase, -⟩
      · rw [step, hworker, htrace, List.mem_append]
        exact ⟨⟨how, hended⟩, not_or.mpr ⟨hno, hnone⟩⟩
      · simp only [Sound, hphase] at hsound
        cases hsound.1.symm.trans hended
  refine (TurnAt.lasts (q := fun c => (∃ how, c.worker = .ended how) ∧ .ready ∉ c.trace) h ?_
    hstays).2
  rintro turns ⟨deadline, how, -, hready, hended⟩
  refine hstays turns .coordinator ⟨⟨how, hended⟩, fun hmem => ?_⟩
  rw [(ready_iff turns).mpr hmem] at hready
  cases hready

/-- Only the end of the wait can be missing the report. -/
theorem wait_of_notReady {wait : WaitEnd} {last : LastMove σ} {calledOff : Bool}
    (h : outcomeOf d r wait last calledOff = .error .notReady) : wait = .released := by
  fun_cases outcomeOf d r wait last calledOff <;> simp_all [outcomeOf]

/-- A run whose wait for traffic came to an end returns accordingly. -/
theorem outcome_of_waitEnded {outcome : Except RunError (Finished σ)} {wait : WaitEnd}
    (hphase : ((initial s).run d r turns).phase = .done outcome)
    (hwait : WaitEnded d r s turns wait) : ∃ last, Ended d r s turns last ∧
      outcome = outcomeOf d r wait last ((initial s).run d r turns).calledOff := by
  have htold := told_run d r s turns
  simp only [Told, hphase] at htold
  rcases htold with ⟨why, hwhy, -⟩ | ⟨wait', last, hwait', hended, houtcome⟩
  · obtain ⟨state, hstate⟩ := generated_of_waitEnded hwait
    cases hwhy.symm.trans hstate
  · obtain rfl := hwait.eq hwait'
    exact ⟨last, hended, houtcome⟩

/-- However the turns are taken, a run that is done returns the first error that applies, or the
capture if there is none: that of preparing the traffic, or else what the end of the wait and the
worker's last move amount to. A worker that has reported traffic is never said not to have. -/
theorem run_returns (d : Driver σ) (r : Request) (s : σ) (turns : List Turn) :
    let c := (initial s).run d r turns
    ∀ outcome, c.phase = .done outcome →
      (∀ why, d.generate r.direction s = .error why → outcome = .error (.setup why)) ∧
      (∀ state, d.generate r.direction s = .ok state →
        (∃ wait last, WaitEnded d r s turns wait ∧ Ended d r s turns last) ∧
        ∀ wait last, WaitEnded d r s turns wait → Ended d r s turns last →
          outcome = outcomeOf d r wait last c.calledOff) ∧
      (.ready ∈ c.trace → outcome ≠ .error .notReady) := by
  intro c outcome hphase
  have htold : Told d r s turns c := told_run d r s turns
  simp only [Told, hphase] at htold
  refine ⟨?_, fun state hstate => ⟨?_, ?_⟩, ?_⟩
  · intro why hwhy
    rcases htold with ⟨why', hwhy', rfl⟩ | ⟨wait, last, hwait, -⟩
    · cases hwhy.symm.trans hwhy'
      rfl
    · obtain ⟨state, hstate⟩ := generated_of_waitEnded hwait
      cases hwhy.symm.trans hstate
  · rcases htold with ⟨why, hwhy, -⟩ | ⟨wait, last, hwait, hended, -⟩
    · cases hwhy.symm.trans hstate
    · exact ⟨wait, last, hwait, hended⟩
  · intro wait last hwait hended
    obtain ⟨last', hended', houtcome⟩ := outcome_of_waitEnded hphase hwait
    rw [houtcome, hended'.eq hended]
  · rintro hready rfl
    rcases htold with ⟨why, -, h⟩ | ⟨wait, last, hwait, -, h⟩
    · cases h
    · obtain rfl := wait_of_notReady h.symm
      exact not_ready_of_released hwait hready

/-- A worker that reports and crashes before the coordinator looks, and a fault that fails. -/
theorem run_returns_action :
    let d : Driver Bool :=
      { generate := fun _ _ => .ok false
        act := fun _ reported => if reported then .crash else .report true
        examine := .ok
        results := fun _ => none }
    let why : Trouble := ⟨["mux port is stuck"]⟩
    let r : Request :=
      ⟨⟨"upper-tor", []⟩, .t1ToServer, some (.error why), none, ⟨⟨0⟩, ⟨1⟩, ⟨10⟩⟩⟩
    let turns : List Turn :=
      [.coordinator, .worker, .worker, .coordinator, .coordinator, .coordinator]
    Ended d r false turns .crash ∧
      ∃ outcome, ((initial false).run d r turns).phase = .done outcome ∧
        outcome = .error (.action why) ∧ outcome ≠ .error .notReady := by
  intro d why r turns
  have hphase : ((initial false).run d r turns).phase = .done (.error (.action why)) := rfl
  have hseen : WaitEnded d r false turns .seen :=
    ⟨[.coordinator, .worker, .worker], _, rfl, 10, rfl, rfl⟩
  have hended : Ended d r false turns .crash := ⟨[.coordinator, .worker], _, rfl, rfl, rfl⟩
  obtain ⟨-, hreturns, hready⟩ := run_returns d r false turns _ hphase
  exact ⟨hended, _, hphase, (hreturns false rfl).2 .seen .crash hseen hended, hready (by decide)⟩

end Config

end Switchover
