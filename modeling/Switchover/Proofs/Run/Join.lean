import Mathlib
import Switchover.Proofs.Run.Turns

/-!
A run that ends has joined its worker, unless it never started one. The coordinator only waits for a
worker without asking it to end where the run was to last as long as the worker does: then traffic
was seen, and the fault, if there was one, went well. On its other ways to the join it has cancelled
the capture before, or the worker had ended already.

The invariant says of each phase what the coordinator knows when it is in it.
-/
namespace Switchover

namespace Config
variable {σ : Type} {d : Driver σ} {r : Request} {s : σ} {c c' : Config σ} {seen : Prop}

/-- Whether the coordinator saw the report of traffic at one of the turns. -/
def SawReady (d : Driver σ) (r : Request) (s : σ) (turns : List Turn) : Prop :=
  ∃ before after deadline, turns = before ++ .coordinator :: after ∧
    ((initial s).run d r before).phase = .awaiting deadline ∧
    ((initial s).run d r before).ready = true

/-- Whether the fault was injected without an error, if one was wanted. -/
def FaultWentWell (r : Request) (c : Config σ) : Prop :=
  r.fault = none ∨ r.fault = some (.ok ()) ∧ .inject ∈ c.trace

/-- What the coordinator can rely on when it waits for the worker to end. -/
def Joinable (seen : Prop) (r : Request) (c : Config σ) : JoinReason → Prop
  | .released => ∃ how, c.worker = .ended how
  | .expired | .faultFailed _ | .over true => c.cancelled = true ∧ .cancel ∈ c.trace
  | .over false =>
    (∃ how, c.worker = .ended how) ∨ r.stopAfter = none ∧ seen ∧ FaultWentWell r c

/-- Whether the run failed for want of traffic or over its fault. -/
def GaveUp : Except RunError (Finished σ) → Prop
  | .error (.action _) | .error (.startupTimeout _) => True
  | _ => False

/-- Whether the worker was never started because its traffic could not be prepared. -/
structure NeverStarted (d : Driver σ) (r : Request) (s : σ) (c : Config σ)
    (outcome : Except RunError (Finished σ)) : Prop where
  refused : ∃ why, d.generate r.direction s = .error why ∧ outcome = .error (.setup why)
  idle : c.worker = .idle
  no_start : .start ∉ c.trace

/-- Whether the worker was joined after it had ended. -/
structure Joined (c : Config σ) : Prop where
  ended : ∃ how, c.worker = .ended how
  join : .join ∈ c.trace

/-- Whether the capture was cancelled before the worker was joined. -/
def CancelledFirst (c : Config σ) : Prop :=
  ∃ before after, c.trace = before ++ .join :: after ∧ .cancel ∈ before

/-- What holds in each phase, if `seen` says that the report of traffic was seen. -/
def Sound (seen : Prop) (d : Driver σ) (r : Request) (s : σ) (c : Config σ) : Prop :=
  match c.phase with
  | .starting => c.worker = .idle ∧ c.driver = s ∧ c.trace = []
  | .awaiting _ => c.worker ≠ .idle
  | .settling _ => c.worker ≠ .idle ∧ seen ∧ r.fault ≠ none
  | .draining _ _ _ => c.worker ≠ .idle
  | .joining reason => c.worker ≠ .idle ∧ Joinable seen r c reason
  | .examining _ => Joined c
  | .done outcome =>
    NeverStarted d r s c outcome ∨ Joined c ∧ (GaveUp outcome → CancelledFirst c)

/-! ### What a turn preserves -/

theorem FaultWentWell.mono (h : FaultWentWell r c) (htrace : c.trace ⊆ c'.trace) :
    FaultWentWell r c' :=
  h.imp_right fun ⟨hfault, hinject⟩ => ⟨hfault, htrace hinject⟩

theorem Joinable.mono {seen' : Prop} {reason : JoinReason} (h : Joinable seen r c reason)
    (hseen : seen → seen') : Joinable seen' r c reason := by
  rcases reason with _ | _ | _ | _ | _
  · exact h
  · exact h
  · exact h
  · exact h.imp_right fun ⟨hstop, hs, hfault⟩ => ⟨hstop, hseen hs, hfault⟩
  · exact h

theorem Sound.mono {seen' : Prop} (h : Sound seen d r s c) (hseen : seen → seen') :
    Sound seen' d r s c := by
  cases hphase : c.phase with
  | settling => simp only [Sound, hphase] at h ⊢; exact ⟨h.1, hseen h.2.1, h.2.2⟩
  | joining reason => simp only [Sound, hphase] at h ⊢; exact ⟨h.1, h.2.mono hseen⟩
  | _ => simpa only [Sound, hphase] using h

/-- Time goes by without a party being aware of it. -/
theorem Sound.clock (h : Sound seen d r s c) (nanos : Nat) :
    Sound seen d r s { c with now := c.now + nanos } := by
  cases hphase : c.phase with
  | joining reason =>
    simp only [Sound, hphase] at h ⊢
    refine ⟨h.1, ?_⟩
    rcases reason with _ | _ | _ | _ | _ <;> exact h.2
  | done outcome =>
    simp only [Sound, hphase] at h ⊢
    exact h.imp (fun h => ⟨h.refused, h.idle, h.no_start⟩) fun h => ⟨⟨h.1.ended, h.1.join⟩, h.2⟩
  | examining => simp only [Sound, hphase] at h ⊢; exact ⟨h.ended, h.join⟩
  | _ => simpa only [Sound, hphase] using h

theorem Joinable.works {reason : JoinReason} (h : Joinable seen r c reason) (hw : Works d c c') :
    Joinable seen r c' reason := by
  have hended : (∃ how, c.worker = .ended how) → ∃ how, c'.worker = .ended how := by
    rintro ⟨how, hhow⟩
    rw [hw.eq_of_not_running (by rw [hhow]; exact nofun)]
    exact ⟨how, hhow⟩
  have htrace := hw.trace_prefix.subset
  rcases reason with _ | _ | _ | _ | _
  · exact hended h
  · exact ⟨hw.cancelled_mono h.1, htrace h.2⟩
  · exact ⟨hw.cancelled_mono h.1, htrace h.2⟩
  · exact h.imp hended fun ⟨hstop, hseen, hfault⟩ => ⟨hstop, hseen, hfault.mono htrace⟩
  · exact ⟨hw.cancelled_mono h.1, htrace h.2⟩

theorem Joined.worker_ne_running (h : Joined c) : c.worker ≠ .running := by
  obtain ⟨how, hhow⟩ := h.ended
  rw [hhow]
  exact nofun

theorem Sound.works (h : Sound seen d r s c) (hw : Works d c c') : Sound seen d r s c' := by
  cases hphase : c.phase with
  | starting =>
    simp only [Sound, hphase] at h
    rw [hw.eq_of_not_running (by rw [h.1]; exact nofun)]
    simpa only [Sound, hphase] using h
  | awaiting | draining =>
    simp only [Sound, hw.phase_eq, hphase] at h ⊢
    exact hw.ne_idle h
  | settling =>
    simp only [Sound, hw.phase_eq, hphase] at h ⊢
    exact ⟨hw.ne_idle h.1, h.2⟩
  | joining reason =>
    simp only [Sound, hw.phase_eq, hphase] at h ⊢
    exact ⟨hw.ne_idle h.1, h.2.works hw⟩
  | examining =>
    have hjoined : Joined c := by simpa only [Sound, hphase] using h
    rwa [hw.eq_of_not_running hjoined.worker_ne_running]
  | done outcome =>
    -- a worker that never started or that has ended does not move
    have hstopped : c.worker ≠ .running := by
      have hdone := h
      simp only [Sound, hphase] at hdone
      rcases hdone with hnever | hjoined
      · rw [hnever.idle]
        exact nofun
      · exact hjoined.1.worker_ne_running
    rwa [hw.eq_of_not_running hstopped]

/-- Without time of its own after the fault, the worker is joined as it is. -/
theorem sound_afterFault (hworker : c.worker ≠ .idle) (hseen : seen) (hfault : FaultWentWell r c) :
    Sound seen d r s (c.afterFault r) := by
  rw [afterFault]
  cases hstop : r.stopAfter with
  | some window => exact hworker
  | none => exact ⟨hworker, .inr ⟨hstop, hseen, hfault.mono (List.Subset.refl _)⟩⟩

/-- What a run ends in when its worker has been joined. -/
theorem sound_settleJoin {reason : JoinReason} {how : WorkerEnd} (hended : c.worker = .ended how)
    (hjoinable : Joinable seen r c reason) :
    Sound seen d r s ((c.note .join).enter (settleJoin r how reason)) := by
  have hjoined : Joined ((c.note .join).enter (settleJoin r how reason)) :=
    ⟨⟨how, hended⟩, mem_trace_note c .join⟩
  have hfirst : .cancel ∈ c.trace →
      CancelledFirst ((c.note .join).enter (settleJoin r how reason)) := fun hcancel =>
    ⟨c.trace, [], rfl, hcancel⟩
  rcases reason with _ | _ | _ | stoppedEarly
  · cases how with
    | finished | failed | crashed => exact .inr ⟨hjoined, nofun⟩
  · exact .inr ⟨hjoined, fun _ => hfirst hjoinable.2⟩
  · exact .inr ⟨hjoined, fun _ => hfirst hjoinable.2⟩
  · cases how with
    | finished => exact hjoined
    | failed | crashed => exact .inr ⟨hjoined, nofun⟩

theorem Sound.leads (h : Sound seen d r s c) (hl : Leads d r c c')
    (hsees : ∀ deadline, c.phase = .awaiting deadline → c.ready = true → seen) :
    Sound seen d r s c' := by
  cases hl with
  | wait => exact h
  | refuse hphase hgenerate =>
    simp only [Sound, hphase] at h
    obtain ⟨hidle, rfl, htrace⟩ := h
    exact .inl ⟨⟨_, hgenerate, rfl⟩, hidle, by simp [enter, note, htrace]⟩
  | start => exact nofun
  | settle hphase hready hfault =>
    simp only [Sound, hphase] at h
    exact ⟨h, hsees _ hphase hready, by rw [hfault]; exact nofun⟩
  | proceed hphase hready hfault =>
    simp only [Sound, hphase] at h
    exact sound_afterFault h (hsees _ hphase hready) (.inl hfault)
  | release hphase hready hended =>
    simp only [Sound, hphase] at h
    exact ⟨h, _, hended⟩
  | expire hphase =>
    simp only [Sound, hphase] at h
    exact ⟨h, rfl, mem_trace_note c .cancel⟩
  | inject hphase hdue hfault =>
    simp only [Sound, hphase] at h
    exact sound_afterFault h.1 h.2.1 (.inr ⟨hfault, mem_trace_note c .inject⟩)
  | injectFails hphase =>
    simp only [Sound, hphase] at h
    exact ⟨h.1, rfl, mem_trace_note (c.note .inject) .cancel⟩
  | injectNothing hphase hdue hfault =>
    -- the coordinator lets traffic settle for a fault only
    simp only [Sound, hphase] at h
    exact absurd hfault h.2.2
  | drained hphase hended =>
    simp only [Sound, hphase] at h
    exact ⟨h, .inl ⟨_, hended⟩⟩
  | cut hphase =>
    simp only [Sound, hphase] at h
    exact ⟨h, rfl, mem_trace_note c .cancel⟩
  | look hphase =>
    simp only [Sound, hphase] at h
    exact h
  | join hphase hended =>
    simp only [Sound, hphase] at h
    exact sound_settleJoin hended h.2
  | skip hphase =>
    simp only [Sound, hphase] at h
    exact .inr ⟨⟨h.ended, h.join⟩, nofun⟩
  | examineFails hphase | examine hphase =>
    simp only [Sound, hphase] at h
    exact .inr ⟨⟨h.ended, List.mem_append_left _ h.join⟩, nofun⟩

/-! ### What a run preserves -/

theorem SawReady.concat {turns : List Turn} (h : SawReady d r s turns) (turn : Turn) :
    SawReady d r s (turns ++ [turn]) := by
  obtain ⟨before, after, deadline, rfl, hseen⟩ := h
  exact ⟨before, after ++ [turn], deadline, by simp, hseen⟩

theorem sound_run (d : Driver σ) (r : Request) (s : σ) (turns : List Turn) :
    Sound (SawReady d r s turns) d r s ((initial s).run d r turns) := by
  induction turns using List.reverseRecOn with
  | nil => exact ⟨rfl, rfl, rfl⟩
  | append_singleton turns turn ih =>
    have hsound := ih.mono fun h => h.concat turn
    rw [run_concat]
    cases turn with
    | worker => exact hsound.works (works_workerStep d _)
    | clock nanos => exact hsound.clock nanos
    | coordinator =>
      exact hsound.leads (leads_coordinatorStep d r _) fun deadline hphase hready =>
        ⟨turns, [], deadline, rfl, hphase, hready⟩

/-- However the turns are taken, a run that is done has joined its worker or never started one, and
a running worker is only waited for without being cancelled where it was to end by itself. A run
that gave up has cancelled the capture before the join. -/
theorem run_joins (d : Driver σ) (r : Request) (s : σ) (turns : List Turn) :
    let c := (initial s).run d r turns
    (∀ outcome, c.phase = .done outcome →
      NeverStarted d r s c outcome ∨ Joined c ∧ (GaveUp outcome → CancelledFirst c)) ∧
    (∀ reason, c.phase = .joining reason → c.worker = .running →
      c.cancelled = true ∨ r.stopAfter = none ∧ SawReady d r s turns ∧ FaultWentWell r c) := by
  have hsound := sound_run d r s turns
  constructor
  · intro outcome hphase
    simpa only [Sound, hphase] using hsound
  · intro reason hphase hrunning
    simp only [Sound, hphase] at hsound
    have hended : ¬ ∃ how, ((initial s).run d r turns).worker = .ended how := by
      rintro ⟨how, hhow⟩
      cases hhow.symm.trans hrunning
    rcases reason with _ | _ | _ | _ | _
    · exact absurd hsound.2 hended
    · exact .inl hsound.2.1
    · exact .inl hsound.2.1
    · exact .inr (hsound.2.resolve_left hended)
    · exact .inl hsound.2.1

/-- A worker that goes on until it is cancelled, and a fault that fails. -/
theorem run_joins_cancelled :
    let d : Driver Unit :=
      { generate := fun _ s => .ok s
        act := fun sight s => if sight.cancelled then .finish s else .report s
        examine := .ok
        results := fun _ => none }
    let why : Trouble := ⟨["mux port is stuck"]⟩
    let r : Request :=
      ⟨⟨"upper-tor", []⟩, .t1ToServer, some (.error why), none,
        ⟨.ofMillis 0, .ofMillis 1, .ofMillis 10⟩⟩
    let c := (initial ()).run d r
      [.coordinator, .worker, .coordinator, .coordinator, .worker, .coordinator]
    (∃ how, c.worker = .ended how) ∧ CancelledFirst c := by
  intro d why r c
  have hphase : c.phase = .done (.error (.action why)) := rfl
  have hended : c.worker = .ended .finished := rfl
  obtain hnever | ⟨hjoined, hfirst⟩ := (run_joins d r () _).1 _ hphase
  · cases hended.symm.trans hnever.idle
  · exact ⟨hjoined.ended, hfirst trivial⟩

end Config

end Switchover
