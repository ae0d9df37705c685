import Mathlib
import Switchover.Proofs.Run.History

/-!
When a capture is cancelled. The coordinator cancels it if the wait for traffic expired, if the
fault failed, or if at a look at or after the end of the time that the worker was given it had not
ended; and never else. That time begins when the fault is over. The worker has the flag in its hands
as well and may cancel itself, and nobody takes the flag back. So the flag tells what the
coordinator did as long as the worker leaves it alone, and a good run always says whether the
coordinator cut it short.
-/
namespace Switchover

/-- What a phase says of a cancellation by the coordinator; an error alone does not tell. -/
def Phase.calledOff? {σ : Type} : Phase σ → Option Bool
  | .starting | .awaiting _ | .settling _ | .draining _ _ _ | .joining .released => some false
  | .joining .expired | .joining (.faultFailed _) => some true
  | .joining (.over stoppedEarly) | .examining stoppedEarly => some stoppedEarly
  | .done (.ok f) => some f.stoppedEarly
  | .done (.error _) => none

/-- Whether a worker never cancels its own capture, so that the flag is set only once the
coordinator wants the capture to end. -/
def Driver.LeavesFlag {σ : Type} (d : Driver σ) : Prop :=
  ∀ sight state next, d.act sight state ≠ .cancel next

namespace Config
variable {σ : Type} {d : Driver σ} {r : Request} {s : σ} {c c' : Config σ} {turns : List Turn}

/-- Whether the fault was injected and failed. -/
def FaultFailed (r : Request) (c : Config σ) : Prop :=
  (∃ why, r.fault = some (.error why)) ∧ .inject ∈ c.trace

/-- Whether a look of the coordinator finds a worker that has used up its time. -/
def Overruns (r : Request) (since window : Nat) (c : Config σ) : Prop :=
  ∃ looks, c.phase = .draining since window looks ∧ nextLook r since looks ≤ c.now ∧
    since + window ≤ c.now ∧ ∀ how, c.worker ≠ .ended how

/-- Whether a look of the coordinator gives it a reason to cancel the capture. -/
def Cancels (r : Request) (c : Config σ) : Prop :=
  c.Finds .expired ∨ (Injects r c ∧ ∃ why, r.fault = some (.error why)) ∨
    ∃ since window, Overruns r since window c

/-- Whether the fault was over at some time, or traffic was seen then and there was to be none. -/
def FaultOverAt (d : Driver σ) (r : Request) (s : σ) (turns : List Turn) (since : Nat) : Prop :=
  TurnAt d r s turns .coordinator fun c => c.now = since ∧
    (Injects r c ∧ r.fault = some (.ok ()) ∨ c.Finds .seen ∧ r.fault = none)

/-- Whether the worker was found to go on at or after the end of the time it was given. -/
def Overran (d : Driver σ) (r : Request) (s : σ) (turns : List Turn) : Prop :=
  ∃ window since, r.stopAfter = some window ∧ FaultOverAt d r s turns since ∧
    TurnAt d r s turns .coordinator (Overruns r since window.nanos)

/-- Whether the worker's next move is to cancel its own capture. -/
def CancelsItself (d : Driver σ) (c : Config σ) : Prop :=
  c.worker = .running ∧ ∃ state, d.act c.sight c.driver = .cancel state

/-- Whether the coordinator has cancelled the capture. -/
def calledOff (c : Config σ) : Bool :=
  decide (.cancel ∈ c.trace)

/-- Whether the worker reported traffic while the coordinator waited for that. -/
def Reported (d : Driver σ) (r : Request) (s : σ) (turns : List Turn) : Prop :=
  TurnAt d r s turns .worker fun c => (∃ deadline, c.phase = .awaiting deadline) ∧
    c.worker = .running ∧ ∃ state, d.act c.sight c.driver = .report state

/-! ### What sets the flag -/

theorem calledOff_iff : c.calledOff = true ↔ .cancel ∈ c.trace :=
  decide_eq_true_iff

theorem cancelled_afterFault (r : Request) (c : Config σ) :
    (c.afterFault r).cancelled = c.cancelled := by
  rcases afterFault_eq r c with ⟨window, -, h⟩ | ⟨-, h⟩ <;> rw [h] <;> rfl

/-- Where there is a reason to cancel the capture, the coordinator does. -/
theorem Cancels.sets (h : Cancels r c) : (c.coordinatorStep d r).cancelled = true ∧
    .cancel ∈ (c.coordinatorStep d r).trace := by
  rw [coordinatorStep]
  rcases h with ⟨deadline, hphase, hready, hrunning, hlate⟩ |
      ⟨⟨faultAt, hphase, hdue, -⟩, why, hfault⟩ |
      ⟨since, window, looks, hphase, hlook, hlate, hrunning⟩
  · simp [hphase, hready, hlate, ended?_eq_none.mpr hrunning, enter, cancel, note]
  · simp [hphase, hdue, Config.inject, hfault, enter, cancel, note]
  · simp [hphase, hlook, hlate, ended?_eq_none.mpr hrunning, enter, cancel, note]

/-- Otherwise it leaves the flag as it is. -/
theorem Leads.cancels_or (h : Leads d r c c') : Cancels r c ∨
    c'.cancelled = c.cancelled ∧ (.cancel ∈ c'.trace ↔ .cancel ∈ c.trace) := by
  cases h with
  | expire hphase hready hrunning hlate => exact .inl (.inl ⟨_, hphase, hready, hrunning, hlate⟩)
  | injectFails hphase hdue hfault =>
    have hinjects : Injects r c := ⟨_, hphase, hdue, Option.ne_none_iff_exists'.mpr ⟨_, hfault⟩⟩
    exact .inl (.inr (.inl ⟨hinjects, _, hfault⟩))
  | cut hphase hrunning hlate hlook =>
    exact .inl (.inr (.inr ⟨_, _, _, hphase, hlook, hlate, hrunning⟩))
  | proceed | inject | injectNothing =>
    exact .inr ⟨cancelled_afterFault .., by simp [trace_afterFault, note]⟩
  | _ => exact .inr ⟨rfl, by simp [enter, note]⟩

/-- The worker sets the flag by its own move alone, and not for the coordinator. -/
theorem Works.cancels_or (h : Works d c c') : CancelsItself d c ∨ c'.cancelled = c.cancelled := by
  cases h with
  | cancel hrunning hact => exact .inl ⟨hrunning, _, hact⟩
  | _ => exact .inr rfl

theorem Works.cancel_mem_trace_iff (h : Works d c c') :
    .cancel ∈ c'.trace ↔ .cancel ∈ c.trace := by
  obtain ⟨news, htrace, hnews⟩ := h.exists_news
  have hno : .cancel ∉ news := fun hmem => by simpa [Event.stage?] using hnews _ hmem
  rw [htrace, List.mem_append, or_iff_left hno]

theorem Works.calledOff_eq (h : Works d c c') : c'.calledOff = c.calledOff :=
  decide_eq_decide.mpr h.cancel_mem_trace_iff

/-- The coordinator has cancelled the capture if it had a reason to at one of its turns. -/
theorem cancel_mem_trace_run_iff (turns : List Turn) :
    .cancel ∈ ((initial s).run d r turns).trace ↔ TurnAt d r s turns .coordinator (Cancels r) := by
  induction turns using List.reverseRecOn with
  | nil => exact iff_of_false List.not_mem_nil not_turnAt_nil
  | append_singleton turns turn ih =>
    rw [run_concat, turnAt_concat, ← ih]
    cases turn with
    | worker => simp [step, (works_workerStep d _).cancel_mem_trace_iff]
    | clock => simp [step]
    | coordinator =>
      rcases (leads_coordinatorStep d r ((initial s).run d r turns)).cancels_or with h | ⟨-, h⟩
      · exact iff_of_true h.sets.2 (.inr ⟨rfl, h⟩)
      · refine h.trans ⟨.inl, fun hor => hor.elim id fun hnow => h.mp hnow.2.sets.2⟩

/-- The flag is set if the coordinator has cancelled the capture or the worker has. -/
theorem cancelled_run_iff (turns : List Turn) : ((initial s).run d r turns).cancelled = true ↔
    .cancel ∈ ((initial s).run d r turns).trace ∨
      TurnAt d r s turns .worker (CancelsItself d) := by
  induction turns using List.reverseRecOn with
  | nil => exact iff_of_false Bool.false_ne_true fun h => h.elim List.not_mem_nil not_turnAt_nil
  | append_singleton turns turn ih =>
    rw [run_concat, turnAt_concat]
    generalize (initial s).run d r turns = c at ih
    cases turn with
    | clock => simpa [step] using ih
    | worker =>
      have hw := works_workerStep d c
      rw [step, hw.cancel_mem_trace_iff, ← or_assoc, ← ih]
      rcases hw.cancels_or with h | h
      · obtain ⟨hrunning, state, hact⟩ := id h
        exact iff_of_true (by simp [workerStep, hrunning, hact]) (.inr ⟨rfl, h⟩)
      · rw [h]
        refine ⟨.inl, fun hor => hor.elim id ?_⟩
        rintro ⟨-, hrunning, state, hact⟩
        rw [← h]
        simp [workerStep, hrunning, hact]
    | coordinator =>
      rw [step]
      rcases (leads_coordinatorStep d r c).cancels_or with h | ⟨hflag, htrace⟩
      · exact iff_of_true h.sets.1 (.inl h.sets.2)
      · rw [hflag, htrace, ih]
        simp

theorem turnAt_or {turn : Turn} {p q : Config σ → Prop} :
    TurnAt d r s turns turn (fun c => p c ∨ q c) ↔
      TurnAt d r s turns turn p ∨ TurnAt d r s turns turn q := by
  constructor
  · rintro ⟨before, after, hturns, hp | hq⟩
    · exact .inl ⟨before, after, hturns, hp⟩
    · exact .inr ⟨before, after, hturns, hq⟩
  · rintro (⟨before, after, hturns, hp⟩ | ⟨before, after, hturns, hq⟩)
    · exact ⟨before, after, hturns, .inl hp⟩
    · exact ⟨before, after, hturns, .inr hq⟩

theorem inject_mem_step (h : Injects r c) : .inject ∈ (c.step d r .coordinator).trace := by
  obtain ⟨faultAt, hphase, hdue, hfault⟩ := h
  rw [step, coordinatorStep]
  simp only [hphase, if_pos hdue, Config.inject]
  split
  · next hnone => exact absurd hnone hfault
  · simp [trace_afterFault, note]
  · simp [enter, cancel, note]

theorem faultFailed_iff (turns : List Turn) : FaultFailed r ((initial s).run d r turns) ↔
    TurnAt d r s turns .coordinator fun c => Injects r c ∧ ∃ why, r.fault = some (.error why) := by
  constructor
  · rintro ⟨hfault, hinject⟩
    obtain ⟨turn, before, after, hturns, hnew⟩ := (happened_iff turns).mp hinject
    obtain rfl := hnew.turn_eq rfl
    exact ⟨before, after, hturns, hnew.injects, hfault⟩
  · intro h
    have hfault := h.choose_spec.choose_spec.2.2
    exact ⟨hfault, h.mem_trace fun turns hinjects => inject_mem_step hinjects.1⟩

/-- The time that the worker is given begins when the fault is over. -/
theorem drains_since_fault {since window looks : Nat} (turns : List Turn)
    (h : ((initial s).run d r turns).phase = .draining since window looks) :
    FaultOverAt d r s turns since ∧ ∃ time, r.stopAfter = some time ∧ window = time.nanos := by
  induction turns using List.reverseRecOn generalizing looks with
  | nil => cases h
  | append_singleton turns turn ih =>
    have hsound := sound_run d r s turns
    have hlast (p : Config σ → Prop) (hp : p ((initial s).run d r turns)) :
        TurnAt d r s (turns ++ [.coordinator]) .coordinator p := .last hp
    rw [run_concat] at h
    cases turn with
    | clock => exact (ih h).imp_left fun h => h.concat _
    | worker =>
      rw [step, (works_workerStep d _).phase_eq] at h
      exact (ih h).imp_left fun h => h.concat _
    | coordinator =>
      have hl := leads_coordinatorStep d r ((initial s).run d r turns)
      rw [step] at h
      generalize (initial s).run d r turns = c at ih hsound hlast hl h
      generalize c.coordinatorStep d r = c' at hl h
      cases hl with
      | wait => exact (ih h).imp_left fun h => h.concat _
      | proceed hphase hready hfault =>
        rcases afterFault_eq r c with ⟨time, htime, h'⟩ | ⟨-, h'⟩ <;> rw [h'] at h <;> cases h
        exact ⟨hlast _ ⟨rfl, .inr ⟨⟨_, hphase, hready⟩, hfault⟩⟩, time, htime, rfl⟩
      | inject hphase hdue hfault =>
        rcases afterFault_eq r (c.note .inject) with ⟨time, htime, h'⟩ | ⟨-, h'⟩ <;>
          rw [h'] at h <;> cases h
        have hinjects : Injects r c :=
          ⟨_, hphase, hdue, Option.ne_none_iff_exists'.mpr ⟨_, hfault⟩⟩
        exact ⟨hlast _ ⟨rfl, .inl ⟨hinjects, hfault⟩⟩, time, htime, rfl⟩
      | injectNothing hphase hdue hfault =>
        -- the coordinator lets traffic settle for a fault only
        simp only [Sound, hphase] at hsound
        exact absurd hfault hsound.2.2
      | look hphase =>
        cases h
        exact (ih hphase).imp_left fun h => h.concat _
      | @join reason how =>
        rcases reason with _ | _ | _ | _ <;> cases how <;> cases h
      | _ => cases h

theorem overran_iff : Overran d r s turns ↔
    TurnAt d r s turns .coordinator fun c => ∃ since window, Overruns r since window c := by
  constructor
  · rintro ⟨window, since, -, -, before, after, hturns, hover⟩
    exact ⟨before, after, hturns, since, window.nanos, hover⟩
  · rintro ⟨before, after, rfl, since, window, hover⟩
    obtain ⟨looks, hphase, -⟩ := id hover
    obtain ⟨hfault, time, hstop, rfl⟩ := drains_since_fault before hphase
    exact ⟨time, since, hstop, TurnAt.append hfault _, _, _, rfl, hover⟩

/-- A phase says rightly whether the coordinator has cancelled the capture. -/
theorem calledOff_of_phase {b : Bool} (turns : List Turn)
    (h : ((initial s).run d r turns).phase.calledOff? = some b) :
    ((initial s).run d r turns).calledOff = b := by
  induction turns using List.reverseRecOn generalizing b with
  | nil => exact Option.some.inj h
  | append_singleton turns turn ih =>
    rw [run_concat] at h ⊢
    generalize (initial s).run d r turns = c at h ih
    cases turn with
    | clock => exact ih h
    | worker =>
      have hw := works_workerStep d c
      rw [step, hw.phase_eq] at h
      rw [step, hw.calledOff_eq]
      exact ih h
    | coordinator =>
      have hl := leads_coordinatorStep d r c
      rw [step] at h ⊢
      generalize c.coordinatorStep d r = c' at hl h
      cases hl with
      | wait => exact ih h
      | refuse | examineFails => cases h
      | start hphase =>
        cases h
        simpa [calledOff, note] using ih (b := false) (by rw [hphase]; rfl)
      | settle hphase | release hphase | drained hphase | look hphase =>
        cases h
        exact ih (by rw [hphase]; rfl)
      | proceed hphase | injectNothing hphase =>
        rcases afterFault_eq r _ with ⟨window, -, h'⟩ | ⟨-, h'⟩ <;> rw [h'] at h ⊢ <;> cases h <;>
          exact ih (by rw [hphase]; rfl)
      | inject hphase =>
        have hbefore := ih (b := false) (by rw [hphase]; rfl)
        rcases afterFault_eq r _ with ⟨window, -, h'⟩ | ⟨-, h'⟩ <;> rw [h'] at h ⊢ <;> cases h <;>
          simpa [calledOff, enter, note] using hbefore
      | expire | injectFails | cut =>
        cases h
        simp [calledOff, enter, cancel, note]
      | @join reason how hphase =>
        -- only a run that is over goes on to say something
        rcases reason with _ | _ | _ | stoppedEarly <;> cases how <;> cases h
        simpa [calledOff, enter, note] using ih (b := b) (by rw [hphase]; rfl)
      | @skip stoppedEarly hphase =>
        cases h
        exact ih (by rw [hphase]; rfl)
      | @examine stoppedEarly driver hphase =>
        cases h
        simpa [calledOff, enter, note] using ih (b := stoppedEarly) (by rw [hphase]; rfl)

/-! ### Reports in time -/

/-- A report that comes while the coordinator waits for it keeps the wait from expiring. -/
theorem not_expired_of_reported (h : Reported d r s turns) : ¬ WaitEnded d r s turns .expired := by
  intro hexpired
  induction turns using List.reverseRecOn with
  | nil => exact not_turnAt_nil h
  | append_singleton turns turn ih =>
    rcases turnAt_concat.mp h with hbefore | ⟨rfl, hnow⟩
    · rcases turnAt_concat.mp hexpired with hexpired | ⟨rfl, hlast⟩
      · exact ih hbefore hexpired
      · -- the report is still there when the coordinator looks
        obtain ⟨deadline, -, hready, -⟩ := hlast
        have hmem : .ready ∈ ((initial s).run d r turns).trace := by
          refine hbefore.mem_trace ?_
          rintro turns ⟨⟨deadline, -⟩, hrunning, state, hact⟩
          simp [step, workerStep, hrunning, hact, note]
        rw [(ready_iff turns).mpr hmem] at hready
        cases hready
    · rcases turnAt_concat.mp hexpired with hexpired | ⟨hturn, -⟩
      · -- the wait is over for good once it has expired
        obtain ⟨⟨deadline, hphase⟩, -⟩ := hnow
        have hpast : 2 ≤ ((initial s).run d r turns).phase.stage :=
          hexpired.stage_le fun turns h => h.passes.2
        rw [hphase, Phase.stage] at hpast
        omega
      · cases hturn

/-- A worker that leaves the flag alone has not set it. -/
theorem not_cancelsItself (hd : d.LeavesFlag) (turns : List Turn) :
    ¬ TurnAt d r s turns .worker (CancelsItself d) := by
  rintro ⟨before, after, -, -, next, hact⟩
  exact hd _ _ next hact

/-- However the turns are taken, the coordinator cancels the capture if the wait for traffic
expired, the fault failed, or the worker went on at the end of the time it was given, and otherwise
it does not. The flag is set if the coordinator has cancelled the capture or the worker has, and it
stands. A good run was cut short if the coordinator cancelled it; and a worker that reports traffic
in time sees no flag but its own if its run is to last as long as it does and the fault does not
fail. So if the worker leaves the flag alone, the flag itself tells all this. -/
theorem cancelled_iff (d : Driver σ) (r : Request) (s : σ) (turns : List Turn) :
    let c := (initial s).run d r turns
    let reason := WaitEnded d r s turns .expired ∨ FaultFailed r c ∨ Overran d r s turns
    ((.cancel ∈ c.trace ↔ reason) ∧
      (c.cancelled = true ↔ reason ∨ TurnAt d r s turns .worker (CancelsItself d)) ∧
      (∀ before after, turns = before ++ after → ((initial s).run d r before).cancelled = true →
        c.cancelled = true) ∧
      (∀ f, c.phase = .done (.ok f) → (f.stoppedEarly = true ↔ .cancel ∈ c.trace)) ∧
      (Reported d r s turns → ¬ WaitEnded d r s turns .expired) ∧
      (r.stopAfter = none → ¬ FaultFailed r c → ¬ WaitEnded d r s turns .expired →
        ∀ before after, turns = before ++ after →
          ((initial s).run d r before).sight.cancelled = true →
          TurnAt d r s before .worker (CancelsItself d))) ∧
    (d.LeavesFlag →
      (c.cancelled = true ↔ reason) ∧
      (∀ f, c.phase = .done (.ok f) → (f.stoppedEarly = true ↔ c.cancelled = true)) ∧
      (r.stopAfter = none → ¬ FaultFailed r c → ¬ WaitEnded d r s turns .expired →
        ∀ before after, turns = before ++ after →
          ((initial s).run d r before).sight.cancelled = false)) := by
  intro c reason
  have hcancel : .cancel ∈ c.trace ↔ reason := by
    rw [cancel_mem_trace_run_iff, show reason ↔ _ from or_congr Iff.rfl
      (or_congr (faultFailed_iff turns) overran_iff), WaitEnded, ← turnAt_or, ← turnAt_or]
    rfl
  have hflag : c.cancelled = true ↔ reason ∨ TurnAt d r s turns .worker (CancelsItself d) := by
    rw [← hcancel]
    exact cancelled_run_iff turns
  have hstopped : ∀ f, c.phase = .done (.ok f) → (f.stoppedEarly = true ↔ .cancel ∈ c.trace) := by
    intro f hphase
    have hphase : c.phase.calledOff? = some f.stoppedEarly := by rw [hphase]; rfl
    rw [← calledOff_iff, calledOff_of_phase turns hphase]
  have hown : r.stopAfter = none → ¬ FaultFailed r c → ¬ WaitEnded d r s turns .expired →
      ∀ before after, turns = before ++ after →
        ((initial s).run d r before).sight.cancelled = true →
        TurnAt d r s before .worker (CancelsItself d) := by
    rintro hstop hfault hexpired before after rfl hsight
    refine ((cancelled_run_iff before).mp hsight).resolve_left fun hmem => ?_
    have hbefore := (cancel_mem_trace_run_iff before).mp hmem
    rcases hcancel.mp ((cancel_mem_trace_run_iff _).mpr (hbefore.append after)) with
      h | h | ⟨window, since, htime, -⟩
    · exact hexpired h
    · exact hfault h
    · cases hstop.symm.trans htime
  refine ⟨⟨hcancel, hflag, ?_, hstopped, not_expired_of_reported, hown⟩, fun hd => ⟨?_, ?_, ?_⟩⟩
  · rintro before after rfl hbefore
    refine (cancelled_run_iff _).mpr (((cancelled_run_iff before).mp hbefore).imp ?_ ?_)
    · simp only [cancel_mem_trace_run_iff]
      exact fun h => h.append after
    · exact fun h => h.append after
  · exact hflag.trans (or_iff_left (not_cancelsItself hd turns))
  · intro f hphase
    rw [hstopped f hphase, hcancel, hflag, or_iff_left (not_cancelsItself hd turns)]
  · intro hstop hfault hexpired before after hturns
    by_contra hsight
    exact not_cancelsItself hd before
      (hown hstop hfault hexpired before after hturns (Bool.of_not_eq_false hsight))

/-- A worker that goes on for three nanoseconds, cut short after one of them, and left to itself;
and one that cancels itself, whose run is not said to be cut short. -/
theorem cancelled_iff_cut :
    let d : Driver Bool :=
      { generate := fun _ _ => .ok false
        act := fun sight reported =>
          if !reported then .report true
          else if sight.cancelled || 3 ≤ sight.elapsed then .finish reported
          else .wait none
        examine := .ok
        results := fun _ => none }
    let own : Driver Bool :=
      { d with
        act := fun sight reported =>
          if !reported then .report true
          else if sight.cancelled then .finish reported
          else .cancel reported }
    let r : Request :=
      ⟨⟨"upper-tor", []⟩, .t1ToServer, none, some ⟨1⟩, ⟨⟨0⟩, ⟨1⟩, ⟨10⟩⟩⟩
    let free : Request := { r with stopAfter := none }
    let cut : List Turn :=
      [.coordinator, .worker, .coordinator, .coordinator, .clock 1, .coordinator, .worker,
        .coordinator, .coordinator]
    let quiet : List Turn :=
      [.coordinator, .worker, .coordinator, .clock 3, .worker, .coordinator, .coordinator]
    let hasty : List Turn :=
      [.coordinator, .worker, .coordinator, .worker, .worker, .coordinator, .coordinator]
    d.LeavesFlag ∧ Overran d r false cut ∧
    (∃ f, ((initial false).run d r cut).phase = .done (.ok f) ∧ f.stoppedEarly = true) ∧
    (∀ before after, quiet = before ++ after →
      ((initial false).run d free before).sight.cancelled = false) ∧
    TurnAt own free false hasty .worker (CancelsItself own) ∧
    ∃ f, ((initial false).run own free hasty).phase = .done (.ok f) ∧ f.stoppedEarly = false := by
  intro d own r free cut quiet hasty
  have hd : d.LeavesFlag := by
    intro sight reported next
    simp only [d]
    split_ifs <;> nofun
  obtain ⟨⟨-, -, -, -, hreported, -⟩, hcut⟩ := cancelled_iff d r false cut
  obtain ⟨hreason, hearly, -⟩ := hcut hd
  have hcancelled : ((initial false).run d r cut).cancelled = true := rfl
  have hphase : ((initial false).run d r cut).phase = .done (.ok ⟨true, true, true⟩) := rfl
  have hexpired : ¬ WaitEnded d r false cut .expired :=
    hreported ⟨[.coordinator], _, rfl, ⟨_, rfl⟩, rfl, true, rfl⟩
  obtain ⟨⟨-, -, -, -, hreported', -⟩, hquiet⟩ := cancelled_iff d free false quiet
  have hexpired' : ¬ WaitEnded d free false quiet .expired :=
    hreported' ⟨[.coordinator], _, rfl, ⟨_, rfl⟩, rfl, true, rfl⟩
  obtain ⟨⟨hcancel, hflag, -, hstopped, -⟩, -⟩ := cancelled_iff own free false hasty
  have hown : ((initial false).run own free hasty).phase = .done (.ok ⟨true, false, true⟩) := rfl
  have hno : .cancel ∉ ((initial false).run own free hasty).trace := by decide
  refine ⟨hd, ?_, ⟨_, hphase, (hearly _ hphase).mpr hcancelled⟩, ?_, ?_, _, hown, ?_⟩
  · rcases hreason.mp hcancelled with h | ⟨⟨why, h⟩, -⟩ | h
    · exact absurd h hexpired
    · cases h
    · exact h
  · refine (hquiet hd).2.2 rfl ?_ hexpired'
    rintro ⟨⟨why, h⟩, -⟩
    cases h
  · exact (hflag.mp rfl).resolve_left fun h => hno (hcancel.mpr h)
  · exact Bool.eq_false_iff.mpr fun h => hno ((hstopped _ hown).mp h)

end Config

end Switchover
