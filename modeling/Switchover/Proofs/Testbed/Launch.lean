import Mathlib
import Switchover.Proofs.Run.Order
import Switchover.Proofs.Run.Undisturbed
import Switchover.Testbed.Harness

/-!
What a test has done by the time that it refuses its options. The delay that it accepts is looked at
by the verdict, and the verdict comes last: a delay that is no length of time is complained about
when traffic has flowed, the fault was injected and the worker has been joined. A test that comes
to nothing before, or has no results to judge, does not complain about it at all.
-/
namespace Switchover

namespace Config
variable {σ : Type} {d : Driver σ} {r : Request} {s : σ} {turns : List Turn}

/-! ### What a run with a capture has done -/

/-- A worker has been started for traffic that was prepared, before all else. -/
theorem started_of_worker (hworker : ((initial s).run d r turns).worker ≠ .idle) :
    [.generate r.direction, .start] <+: ((initial s).run d r turns).trace := by
  obtain ⟨turn, hturn⟩ := exists_turnAt (q := fun c => c.worker ≠ .idle)
    (not_not.mpr rfl) hworker
  refine TurnAt.lasts (q := fun c => [Event.generate r.direction, .start] <+: c.trace) hturn ?_
    fun turns turn h => h.trans (trace_prefix_step _ turn)
  rintro turns ⟨hidle, hmoves⟩
  have hsound := sound_run d r s turns
  generalize (initial s).run d r turns = c at hidle hmoves hsound
  cases turn with
  | clock => exact absurd hmoves hidle
  | worker =>
    have hrunning : c.worker ≠ .running := fun h => by cases (not_not.mp hidle).symm.trans h
    rw [step, (works_workerStep d c).eq_of_not_running hrunning] at hmoves
    exact absurd hmoves hidle
  | coordinator =>
    rcases (leads_coordinatorStep d r c).worker_eq with hsame | ⟨hphase, -⟩
    · exact absurd hmoves (by rwa [step, hsame])
    · simp only [Sound, hphase] at hsound
      simp only [step, coordinatorStep, hphase] at hmoves ⊢
      cases hgenerate : d.generate r.direction c.driver with
      | error why => simp [enter, note, hgenerate, hsound.1] at hmoves
      | ok state => simp [note, hgenerate, hsound.2.2]

/-- A run without a fault injects none. -/
theorem not_inject_of_none (hfault : r.fault = none) :
    .inject ∉ ((initial s).run d r turns).trace := by
  intro hmem
  obtain ⟨turn, before, after, -, hnew⟩ := (happened_iff turns).mp hmem
  obtain ⟨faultAt, -, -, hsome⟩ := hnew.injects
  exact hsome hfault

/-- A run that returns a capture has had its traffic, its fault and its join. -/
theorem effects_of_ok {f : Finished σ}
    (hphase : ((initial s).run d r turns).phase = .done (.ok f)) :
    [.generate r.direction, .start] <+: ((initial s).run d r turns).trace ∧
      .join ∈ ((initial s).run d r turns).trace ∧
      ((initial s).run d r turns).injections = if r.fault.isSome then 1 else 0 := by
  have hsound := sound_run d r s turns
  simp only [Sound, hphase] at hsound
  obtain ⟨hjoined, -⟩ := hsound.resolve_left fun hnever => by
    obtain ⟨why, -, h⟩ := hnever.refused
    cases h
  refine ⟨started_of_worker fun hidle => ?_, hjoined.join, ?_⟩
  · obtain ⟨how, hhow⟩ := hjoined.ended
    cases hhow.symm.trans hidle
  · rcases faultWentWell_of_ok hphase with hfault | ⟨hfault, hinject⟩
    · simpa [hfault, injections] using List.count_eq_zero.mpr (not_inject_of_none hfault)
    · have hpos := List.count_pos_iff.mpr hinject
      have hle := count_le_one (d := d) (r := r) (s := s) (e := .inject) rfl turns
      simp only [hfault, injections, Option.isSome_some, if_true]
      omega

end Config

/-! ### The delay -/

theorem Thresholds.delay_promoted (t : Thresholds) : t.promoted.delay = t.delay := by
  rw [Thresholds.promoted]
  split <;> rfl

/-- Every direction judges by the delay that the caller gave. -/
theorem Profile.delay_thresholds (p : Profile) (o : Options) : (p.thresholds o).delay = o.delay :=
  Thresholds.delay_promoted _

theorem verify_eq_of_invalid {t : Thresholds} (ht : t.isValid = false)
    (results : Option Deliveries) : verify t results =
      .error (if results.isSome then .invalidDelay t.delay else .noResults) := by
  cases results with
  | none => rfl
  | some ds => simp [verify, evaluate, ht]

namespace Testbed
variable {σ : Type} {t : Testbed σ} {direction : Direction} {active : Host}
  {muxPorts : List String} {o : Options} {fault : Option (Except Trouble Unit)}

/-! ### What a test can come to -/

/-- What a test comes to if `lead` says where its run leads, each way out with what it takes. -/
inductive Comes (t : Testbed σ) (lead : Request → σ → Config σ) (direction : Direction)
    (active : Host) (muxPorts : List String) (o : Options)
    (fault : Option (Except Trouble Unit)) : Launch σ → Prop
  | noPeer {e : TestbedError} (hpeer : peerOf t.hosts active = .error e) :
      Comes t lead direction active muxPorts o fault ⟨none, 0, none, some (.error (.testbed e))⟩
  | noDriver {peer : Host} {why : Trouble} (hpeer : peerOf t.hosts active = .ok peer)
      (hcreate : t.create (t.setup direction active peer muxPorts o) = .error why) :
      Comes t lead direction active muxPorts o fault
        ⟨some (t.setup direction active peer muxPorts o), 0, none,
          some (.error (.run (.setup why)))⟩
  | unended {peer : Host} {s : σ} {final : Config σ} (hpeer : peerOf t.hosts active = .ok peer)
      (hcreate : t.create (t.setup direction active peer muxPorts o) = .ok s)
      (hfinal : final = lead (t.request direction active o fault) s)
      (hend : final.outcome? = none) :
      Comes t lead direction active muxPorts o fault
        ⟨some (t.setup direction active peer muxPorts o), final.injections, none, none⟩
  | failed {peer : Host} {s : σ} {final : Config σ} {e : RunError}
      (hpeer : peerOf t.hosts active = .ok peer)
      (hcreate : t.create (t.setup direction active peer muxPorts o) = .ok s)
      (hfinal : final = lead (t.request direction active o fault) s)
      (hend : final.outcome? = some (.error e)) :
      Comes t lead direction active muxPorts o fault
        ⟨some (t.setup direction active peer muxPorts o), final.injections, none,
          some (.error (.run e))⟩
  | finished {peer : Host} {s : σ} {final : Config σ} {f : Finished σ}
      (hpeer : peerOf t.hosts active = .ok peer)
      (hcreate : t.create (t.setup direction active peer muxPorts o) = .ok s)
      (hfinal : final = lead (t.request direction active o fault) s)
      (hend : final.outcome? = some (.ok f)) :
      Comes t lead direction active muxPorts o fault
        ⟨some (t.setup direction active peer muxPorts o), final.injections, some f,
          some (t.conclude direction active o f)⟩

theorem comes_launchBy (t : Testbed σ) (lead : Request → σ → Config σ) (direction : Direction)
    (active : Host) (muxPorts : List String) (o : Options)
    (fault : Option (Except Trouble Unit)) : t.Comes lead direction active muxPorts o fault
      (t.launchBy lead direction active muxPorts o fault) := by
  rw [launchBy]
  split
  · next hpeer => exact .noPeer hpeer
  · next peer hpeer =>
    dsimp only
    split
    · next hcreate => exact .noDriver hpeer hcreate
    · next s hcreate =>
      split
      · next hend => exact .unended hpeer hcreate rfl hend
      · next hend => exact .failed hpeer hcreate rfl hend
      · next hend => exact .finished hpeer hcreate rfl hend

/-- Whether a test came as far as a run, and where the run ended. -/
def Ran (t : Testbed σ) (direction : Direction) (active : Host) (muxPorts : List String)
    (o : Options) (fault : Option (Except Trouble Unit)) (final : Config σ) : Prop :=
  ∃ peer state, peerOf t.hosts active = .ok peer ∧
    t.create (t.setup direction active peer muxPorts o) = .ok state ∧
    final = t.driver.conduct (t.request direction active o fault) state

/-- The run of a test is a run like any other. -/
theorem Ran.exists_run {final : Config σ} (h : t.Ran direction active muxPorts o fault final) :
    ∃ state turns, final = (Config.initial state).run t.driver
      (t.request direction active o fault) turns := by
  obtain ⟨peer, state, -, -, rfl⟩ := h
  obtain ⟨turns, hturns⟩ := t.driver.conduct_eq_run _ state
  exact ⟨state, turns, hturns⟩

/-- The run of a test tells what becomes of it. -/
theorem Ran.launch_eq {final : Config σ} (h : t.Ran direction active muxPorts o fault final) :
    (t.launch direction active muxPorts o fault).injections = final.injections ∧
    (t.launch direction active muxPorts o fault).result = final.outcome?.map fun
      | .error e => .error (.run e)
      | .ok f => t.conclude direction active o f := by
  obtain ⟨peer, state, hpeer, hstate, rfl⟩ := h
  have hcomes := t.comes_launchBy t.driver.conduct direction active muxPorts o fault
  rw [launch]
  generalize t.launchBy t.driver.conduct direction active muxPorts o fault = l at hcomes
  cases hcomes with
  | noPeer hp => cases hpeer.symm.trans hp
  | noDriver hp hs =>
    obtain rfl := Except.ok.inj (hpeer.symm.trans hp)
    cases hstate.symm.trans hs
  | unended hp hs hfinal hend | failed hp hs hfinal hend | finished hp hs hfinal hend =>
    obtain rfl := Except.ok.inj (hpeer.symm.trans hp)
    obtain rfl := Except.ok.inj (hstate.symm.trans hs)
    subst hfinal
    exact ⟨rfl, by rw [hend]; rfl⟩

/-- A test that does not come to a run fails without a verdict. -/
theorem ran_or_fails (t : Testbed σ) (direction : Direction) (active : Host)
    (muxPorts : List String) (o : Options) (fault : Option (Except Trouble Unit)) :
    (∃ final, t.Ran direction active muxPorts o fault final) ∨
    ∃ e, (t.launch direction active muxPorts o fault).result = some (.error e) ∧
      ∀ v, e ≠ .verdict v := by
  have hcomes := t.comes_launchBy t.driver.conduct direction active muxPorts o fault
  rw [launch]
  generalize t.launchBy t.driver.conduct direction active muxPorts o fault = l at hcomes
  cases hcomes with
  | noPeer => exact .inr ⟨_, rfl, nofun⟩
  | noDriver => exact .inr ⟨_, rfl, nofun⟩
  | unended hpeer hs hfinal | failed hpeer hs hfinal | finished hpeer hs hfinal =>
    exact .inl ⟨_, _, _, hpeer, hs, hfinal⟩

/-! ### Invalid delays -/

theorem conclude_of_invalid (hreal : active.isVirtual = false) (hverify : o.verify = true)
    (hdelay : o.delay.isFinite = false ∨ o.delay < 0) (f : Finished σ) :
    t.conclude direction active o f = .error (.verdict
      (if (t.driver.results f.driver).isSome then .invalidDelay o.delay else .noResults)) := by
  have hinvalid : ((Profile.of direction).thresholds o).isValid = false := by
    rw [Thresholds.isValid, Profile.delay_thresholds]
    rcases hdelay with hdelay | hdelay <;> simp [hdelay]
  simp [conclude, hreal, verifyAndReport, hverify, verify_eq_of_invalid hinvalid,
    Profile.delay_thresholds]

theorem Ran.result_eq_of_invalid {final : Config σ}
    (h : t.Ran direction active muxPorts o fault final) (hreal : active.isVirtual = false)
    (hverify : o.verify = true) (hdelay : o.delay.isFinite = false ∨ o.delay < 0) :
    (t.launch direction active muxPorts o fault).result = final.outcome?.map fun
      | .error e => .error (.run e)
      | .ok f => .error (.verdict
          (if (t.driver.results f.driver).isSome then .invalidDelay o.delay else .noResults)) := by
  rw [h.launch_eq.2]
  congr 1
  funext outcome
  cases outcome with
  | error e => rfl
  | ok f => exact conclude_of_invalid hreal hverify hdelay f

/-- On a real switch, a delay that is no length of time never gets a test through, but it is only
refused by the verdict: the refusal takes a run that returned a capture with results, whose traffic
was started, whose fault was injected and whose worker was joined. -/
theorem launch_judges_last (t : Testbed σ) (direction : Direction) (active : Host)
    (muxPorts : List String) (o : Options) (fault : Option (Except Trouble Unit))
    (hreal : active.isVirtual = false) (hverify : o.verify = true)
    (hdelay : o.delay.isFinite = false ∨ o.delay < 0) :
    let launch := t.launch direction active muxPorts o fault
    (∀ results, launch.result ≠ some (.ok results)) ∧
    (launch.result = some (.error (.verdict (.invalidDelay o.delay))) ↔
      ∃ final f, t.Ran direction active muxPorts o fault final ∧ final.phase = .done (.ok f) ∧
        (t.driver.results f.driver).isSome) ∧
    (∀ final f, t.Ran direction active muxPorts o fault final → final.phase = .done (.ok f) →
      [.generate direction, .start] <+: final.trace ∧ .join ∈ final.trace ∧
      launch.injections = if fault.isSome then 1 else 0) := by
  intro launch
  refine ⟨fun results hresult => ?_, ⟨fun hresult => ?_, ?_⟩, ?_⟩
  · rcases t.ran_or_fails direction active muxPorts o fault with ⟨final, hran⟩ | ⟨e, he, -⟩
    · rw [hran.result_eq_of_invalid hreal hverify hdelay, Option.map_eq_some_iff] at hresult
      obtain ⟨outcome, -, h⟩ := hresult
      cases outcome <;> cases h
    · cases hresult.symm.trans he
  · rcases t.ran_or_fails direction active muxPorts o fault with ⟨final, hran⟩ | ⟨e, he, hverdict⟩
    · rw [hran.result_eq_of_invalid hreal hverify hdelay, Option.map_eq_some_iff] at hresult
      obtain ⟨outcome, houtcome, h⟩ := hresult
      cases outcome with
      | error e => cases h
      | ok f =>
        refine ⟨final, f, hran, Config.outcome?_eq_some.mp houtcome, ?_⟩
        by_contra hnone
        simp [hnone] at h
    · cases hresult.symm.trans he
      exact absurd rfl (hverdict _)
  · rintro ⟨final, f, hran, hphase, hsome⟩
    rw [hran.result_eq_of_invalid hreal hverify hdelay, Config.outcome?_eq_some.mpr hphase]
    simp [hsome]
  · intro final f hran hphase
    rw [hran.launch_eq.1]
    obtain ⟨state, turns, rfl⟩ := hran.exists_run
    exact Config.effects_of_ok hphase

/-- A negative delay, and a fault that goes well. -/
theorem launch_judges_last_negative :
    let d : Driver Bool :=
      { generate := fun _ _ => .ok false
        act := fun _ reported => if reported then .finish true else .report true
        examine := .ok
        results := fun _ => some .empty }
    let upper : Host := ⟨"upper-tor", []⟩
    let t : Testbed Bool :=
      ⟨[upper, ⟨"lower-tor", []⟩], .activeStandby, ⟨⟨0⟩, ⟨1⟩, ⟨10⟩⟩, ⟨100, 10, 10, 10, 10⟩, d,
        fun _ => .ok false⟩
    let o : Options := { Options.unset with delay := -1, verify := true }
    let launch := t.launch .t1ToServer upper [] o (some (.ok ()))
    launch.result = some (.error (.verdict (.invalidDelay (-1)))) ∧ launch.injections = 1 := by
  intro d upper t o launch
  obtain ⟨-, hrefusal, heffects⟩ := launch_judges_last t .t1ToServer upper [] o (some (.ok ()))
    (by decide) rfl (.inr (by decide))
  let r : Request := t.request .t1ToServer upper o (some (.ok ()))
  have hran : t.Ran .t1ToServer upper [] o (some (.ok ())) (d.conduct r false) :=
    ⟨⟨"lower-tor", []⟩, false, rfl, rfl, rfl⟩
  have hturns : (Config.initial false).Undisturbed d r
      [.coordinator, .worker, .worker, .coordinator, .coordinator, .coordinator, .coordinator] :=
    ⟨rfl, rfl, rfl, rfl, rfl, rfl, rfl, rfl⟩
  have hphase : (d.conduct r false).phase = .done (.ok ⟨true, false, true⟩) := by
    rw [Driver.conduct_eq hturns]
    rfl
  exact ⟨hrefusal.mpr ⟨_, _, hran, hphase, rfl⟩, (heffects _ _ hran hphase).2.2⟩

end Testbed

end Switchover
