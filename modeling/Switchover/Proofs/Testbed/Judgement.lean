import Mathlib
import Switchover.Proofs.Testbed.Launch
import Switchover.Proofs.Verdict.Conditions
import Switchover.Proofs.Verdict.Rules

/-!
What a test that is to be verified hands back has been judged. There are many ways out of a test: no
peer, no driver, a run that fails, a virtual switch that is not examined or not judged at all, a
driver without results, and the verdict. Results leave it on one way only, and that leads through
the verdict; this holds in whatever order the parties of the run take their turns.
-/
namespace Switchover

/-! ### Verdicts -/

section Verdicts
variable {t : Thresholds} {ds : Deliveries} {report : Report}

/-- Whether the delivery of some endpoint, as the rules see it, breaks one. -/
def Thresholds.BrokenBy (t : Thresholds) (ds : Deliveries) : Prop :=
  ∃ x ∈ ds.entries, ∃ rule : Rule, rule.Broken t (x.2.seenBy t)

theorem isValid_of_evaluate (h : evaluate t ds = .ok report) : t.isValid = true := by
  rw [evaluate] at h
  split_ifs at h with ht
  exact ht

/-- A report lists a failure just if a rule is broken. -/
theorem failures_ne_nil_iff (h : evaluate t ds = .ok report) :
    report.failures ≠ [] ↔ t.BrokenBy ds := by
  have ht := isValid_of_evaluate h
  rw [Ne, failures_of_evaluate h, Thresholds.BrokenBy]
  push Not
  simp only [Ne, findings_eq_nil_iff, not_forall, Bool.not_eq_false, isViolated_iff ht]

/-- Of results for which there is a report, the verdict is that of the report. -/
theorem verifyAndReport_of_report (h : evaluate t ds = .ok report) :
    verifyAndReport true t (some ds) =
      if report.failures = [] then .ok (some ds) else .error (.failed report) := by
  have hpasses : report.passes = true ↔ report.failures = [] := List.isEmpty_iff
  rw [verifyAndReport, if_pos rfl, verify, h]
  by_cases hnil : report.failures = []
  · simp [hnil, hpasses]
  · simp [hnil, hpasses]

end Verdicts

namespace Testbed
variable {σ : Type} {t : Testbed σ} {direction : Direction} {active : Host}
  {muxPorts : List String} {o : Options} {fault : Option (Except Trouble Unit)}
  {f : Finished σ}

/-- What becomes of a test if the turns of its run are taken in a certain order. -/
def launchAlong (t : Testbed σ) (direction : Direction) (active : Host) (muxPorts : List String)
    (o : Options) (fault : Option (Except Trouble Unit)) (turns : List Turn) : Launch σ :=
  t.launchBy (fun r s => (Config.initial s).run t.driver r turns) direction active muxPorts o fault

/-- Whether the run of a test, if it comes to one, takes certain turns when it is left undisturbed,
and comes to its end with them. -/
def Undisturbed (t : Testbed σ) (direction : Direction) (active : Host) (muxPorts : List String)
    (o : Options) (fault : Option (Except Trouble Unit)) (turns : List Turn) : Prop :=
  ∀ peer s, peerOf t.hosts active = .ok peer →
    t.create (t.setup direction active peer muxPorts o) = .ok s →
    (Config.initial s).Undisturbed t.driver (t.request direction active o fault) turns

/-! ### The turns of a test -/

/-- A test whose run comes to an end is what its turns make of it. -/
theorem launch_of_undisturbed {turns : List Turn}
    (h : t.Undisturbed direction active muxPorts o fault turns) :
    t.launch direction active muxPorts o fault =
      t.launchAlong direction active muxPorts o fault turns := by
  cases hpeer : peerOf t.hosts active with
  | error e => simp only [launch, launchAlong, launchBy, hpeer]
  | ok peer =>
    cases hcreate : t.create (t.setup direction active peer muxPorts o) with
    | error why => simp only [launch, launchAlong, launchBy, hpeer, hcreate]
    | ok s =>
      have hconduct := Driver.conduct_eq (h peer s hpeer hcreate)
      simp only [launch, launchAlong, launchBy, hpeer, hcreate, hconduct]

/-- A test has an answer only if its run, if it comes to one, comes to an end. -/
theorem exists_undisturbed {a : Except HarnessError (Option Deliveries)}
    (h : (t.launch direction active muxPorts o fault).result = some a) :
    ∃ turns, t.Undisturbed direction active muxPorts o fault turns := by
  have hcomes := t.comes_launchBy t.driver.conduct direction active muxPorts o fault
  rw [launch] at h
  generalize t.launchBy t.driver.conduct direction active muxPorts o fault = l at hcomes h
  cases hcomes with
  | noPeer hpeer => exact ⟨[], fun peer s hp => by cases hpeer.symm.trans hp⟩
  | noDriver hpeer hcreate =>
    refine ⟨[], fun peer s hp hs => ?_⟩
    obtain rfl := Except.ok.inj (hpeer.symm.trans hp)
    cases hcreate.symm.trans hs
  | unended => cases h
  | @failed peer s final e hpeer hcreate hfinal hend
  | @finished peer s final f hpeer hcreate hfinal hend =>
    have hmoved : t.driver.conduct (t.request direction active o fault) s ≠ Config.initial s := by
      intro hsame
      rw [hfinal, hsame] at hend
      cases hend
    obtain ⟨turns, hturns⟩ := Driver.exists_undisturbed hmoved
    refine ⟨turns, fun peer' s' hp hs => ?_⟩
    obtain rfl := Except.ok.inj (hpeer.symm.trans hp)
    obtain rfl := Except.ok.inj (hcreate.symm.trans hs)
    exact hturns

/-- A test has no answer just if it has come to a run that does not end. -/
theorem launch_eq_none_iff : (t.launch direction active muxPorts o fault).result = none ↔
    ∃ final, t.Ran direction active muxPorts o fault final ∧ final.outcome? = none := by
  constructor
  · intro hnone
    rcases t.ran_or_fails direction active muxPorts o fault with ⟨final, hran⟩ | ⟨e, he, -⟩
    · exact ⟨final, hran, by rwa [hran.launch_eq.2, Option.map_eq_none_iff] at hnone⟩
    · cases hnone.symm.trans he
  · rintro ⟨final, hran, hend⟩
    rw [hran.launch_eq.2, hend, Option.map_none]

section Ways
variable {turns : List Turn} {a : Except HarnessError (Option Deliveries)}
  (h : (t.launchAlong direction active muxPorts o fault turns).result = some a)
include h

/-- A test without a run that finished has no results, and it has not come to the verdict. -/
theorem launchAlong_none
    (hnone : (t.launchAlong direction active muxPorts o fault turns).finished = none) :
    (∀ results, a ≠ .ok results) ∧ ∀ v, a ≠ .error (.verdict v) := by
  have hcomes := t.comes_launchBy (fun r s => (Config.initial s).run t.driver r turns) direction
    active muxPorts o fault
  rw [launchAlong] at h hnone
  generalize t.launchBy _ direction active muxPorts o fault = l at hcomes h hnone
  cases hcomes with
  | noPeer | noDriver | failed =>
    cases h
    exact ⟨nofun, nofun⟩
  | unended => cases h
  | finished => cases hnone

theorem launchAlong_some
    (hsome : (t.launchAlong direction active muxPorts o fault turns).finished = some f) :
    a = t.conclude direction active o f := by
  have hcomes := t.comes_launchBy (fun r s => (Config.initial s).run t.driver r turns) direction
    active muxPorts o fault
  rw [launchAlong] at h hsome
  generalize t.launchBy _ direction active muxPorts o fault = l at hcomes h hsome
  cases hcomes with
  | noPeer | noDriver | failed | unended => cases hsome
  | finished =>
    cases h
    cases hsome
    rfl

end Ways

/-! ### The way to the verdict -/

theorem isValid_thresholds (p : Profile) (o : Options) :
    (p.thresholds o).isValid = true ↔ o.delay.isFinite = true ∧ ¬ o.delay < 0 := by
  simp [Thresholds.isValid, Profile.delay_thresholds]

/-- Whether nothing is judged in a direction, as the switch is virtual. -/
def Unjudged (direction : Direction) (active : Host) : Prop :=
  (Profile.of direction).skipsVirtual = true ∧ active.isVirtual = true

theorem conclude_of_unjudged (h : Unjudged direction active) :
    t.conclude direction active o f = .ok none := by
  simp [conclude, h.1, h.2]

theorem conclude_of_judged (h : ¬ Unjudged direction active) : t.conclude direction active o f =
    (verifyAndReport o.verify ((Profile.of direction).thresholds o)
      (t.driver.results f.driver)).mapError .verdict := by
  rw [conclude, if_neg (by simpa [Unjudged] using h)]
  cases verifyAndReport o.verify ((Profile.of direction).thresholds o)
    (t.driver.results f.driver) <;> rfl

/-- A test that is not to be verified does not end in a verdict. -/
theorem conclude_of_unverified (hverify : o.verify = false) (v : VerdictError) :
    t.conclude direction active o f ≠ .error (.verdict v) := by
  by_cases h : Unjudged direction active
  · rw [conclude_of_unjudged h]
    nofun
  · rw [conclude_of_judged h, hverify]
    nofun

/-- How a test answers that is to be verified, by the end of its run. -/
structure Judges (t : Testbed σ) (direction : Direction) (active : Host) (o : Options)
    (finished : Option (Finished σ)) (a : Except HarnessError (Option Deliveries)) : Prop where
  /-- Only the results of the run are handed back, and only with a report that passes. -/
  results_iff : ∀ ds, a = .ok (some ds) ↔ ∃ f ∈ finished, ¬ Unjudged direction active ∧
    t.driver.results f.driver = some ds ∧
    ∃ report, evaluate ((Profile.of direction).thresholds o) ds = .ok report ∧ report.failures = []
  nothing_iff : a = .ok none ↔ finished.isSome ∧ Unjudged direction active
  noResults : ∀ f ∈ finished, ¬ Unjudged direction active → t.driver.results f.driver = none →
    a = .error (.verdict .noResults)
  failed : ∀ f ∈ finished, ¬ Unjudged direction active →
    ∀ ds, t.driver.results f.driver = some ds → o.delay.isFinite = true → ¬ o.delay < 0 →
    ((Profile.of direction).thresholds o).BrokenBy ds →
    ∃ report, evaluate ((Profile.of direction).thresholds o) ds = .ok report ∧
      a = .error (.verdict (.failed report))
  invalidDelay : ∀ f ∈ finished, ¬ Unjudged direction active →
    ∀ ds, t.driver.results f.driver = some ds → (o.delay.isFinite = false ∨ o.delay < 0) →
    a = .error (.verdict (.invalidDelay o.delay))

theorem judges_none {a : Except HarnessError (Option Deliveries)} (h : ∀ results, a ≠ .ok results) :
    t.Judges direction active o none a where
  results_iff ds := iff_of_false (h _) (by simp)
  nothing_iff := iff_of_false (h _) (by simp)
  noResults := by simp
  failed := by simp
  invalidDelay := by simp

theorem judges_unjudged (h : Unjudged direction active) :
    t.Judges direction active o (some f) (.ok none) where
  results_iff ds := iff_of_false nofun (by simp [h])
  nothing_iff := iff_of_true rfl ⟨rfl, h⟩
  noResults _ _ hjudged := absurd h hjudged
  failed _ _ hjudged := absurd h hjudged
  invalidDelay _ _ hjudged := absurd h hjudged

section Judged
variable (h : ¬ Unjudged direction active) {ds : Deliveries} {report : Report}
include h

theorem judges_of_no_results (hresults : t.driver.results f.driver = none) :
    t.Judges direction active o (some f) (.error (.verdict .noResults)) where
  results_iff ds := iff_of_false nofun (by simp [hresults])
  nothing_iff := iff_of_false nofun (by simp [h])
  noResults _ _ _ _ := rfl
  failed := by simp [hresults]
  invalidDelay := by simp [hresults]

variable (hresults : t.driver.results f.driver = some ds)
include hresults

theorem judges_of_invalid (hinvalid : ((Profile.of direction).thresholds o).isValid = false) :
    t.Judges direction active o (some f) (.error (.verdict (.invalidDelay o.delay))) where
  results_iff ds := by
    refine iff_of_false nofun ?_
    rintro ⟨f', -, -, -, report, hreport, -⟩
    cases hinvalid.symm.trans (isValid_of_evaluate hreport)
  nothing_iff := iff_of_false nofun (by simp [h])
  noResults := by simp [hresults]
  failed _ _ _ _ _ hfinite hpos := by
    cases hinvalid.symm.trans ((isValid_thresholds _ o).mpr ⟨hfinite, hpos⟩)
  invalidDelay _ _ _ _ _ _ := rfl

theorem judges_of_report
    (hreport : evaluate ((Profile.of direction).thresholds o) ds = .ok report) :
    t.Judges direction active o (some f) (if report.failures = [] then .ok (some ds)
      else .error (.verdict (.failed report))) where
  results_iff ds' := by
    constructor
    · intro ha
      split_ifs at ha with hnil
      obtain rfl := Option.some.inj (Except.ok.inj ha)
      exact ⟨f, rfl, h, hresults, report, hreport, hnil⟩
    · rintro ⟨f', hf, -, hresults', report', hreport', hnil⟩
      obtain rfl := Option.some.inj hf
      obtain rfl := Option.some.inj (hresults.symm.trans hresults')
      obtain rfl := Except.ok.inj (hreport.symm.trans hreport')
      rw [if_pos hnil]
  nothing_iff := by
    refine iff_of_false ?_ (by simp [h])
    split_ifs <;> nofun
  noResults := by simp [hresults]
  failed f' hf _ ds' hresults' _ _ hbroken := by
    obtain rfl := Option.some.inj hf
    obtain rfl := Option.some.inj (hresults.symm.trans hresults')
    exact ⟨report, hreport, if_neg ((failures_ne_nil_iff hreport).mpr hbroken)⟩
  invalidDelay f' _ _ ds' _ hdelay := by
    obtain ⟨hfinite, hpos⟩ := (isValid_thresholds _ o).mp (isValid_of_evaluate hreport)
    rcases hdelay with hdelay | hdelay
    · cases hdelay.symm.trans hfinite
    · exact absurd hdelay hpos

end Judged

theorem judges_conclude (hverify : o.verify = true) (f : Finished σ) :
    t.Judges direction active o (some f) (t.conclude direction active o f) := by
  by_cases h : Unjudged direction active
  · rw [conclude_of_unjudged h]
    exact judges_unjudged h
  rw [conclude_of_judged h, hverify]
  cases hresults : t.driver.results f.driver with
  | none => exact judges_of_no_results h hresults
  | some ds =>
    by_cases hvalid : ((Profile.of direction).thresholds o).isValid = true
    · obtain ⟨report, hreport⟩ :
          ∃ report, evaluate ((Profile.of direction).thresholds o) ds = .ok report :=
        ⟨_, if_pos hvalid⟩
      have hjudges := judges_of_report h hresults hreport
      rw [verifyAndReport_of_report hreport]
      split_ifs at hjudges ⊢ <;> exact hjudges
    · have hinvalid := Bool.not_eq_true _ ▸ hvalid
      rw [verifyAndReport, if_pos rfl, verify_eq_of_invalid hinvalid, Profile.delay_thresholds]
      exact judges_of_invalid h hresults hinvalid

/-- The capture of a virtual switch is not examined. -/
theorem examine_not_mem_trace (hvirtual : active.isVirtual = true) (s : σ) (turns : List Turn) :
    .examine ∉ ((Config.initial s).run t.driver (t.request direction active o fault)
      turns).trace := by
  intro hexamined
  obtain ⟨turn, before, -, -, hhappens⟩ := (Config.happened_iff turns).mp hexamined
  obtain ⟨-, -, hreal⟩ := hhappens.examines
  cases hreal.symm.trans hvirtual

/-- A test that is to be verified hands back results only if its run has finished with just these
and they pass, and nothing only if the run has finished and is not judged on a virtual switch; if a
run is judged that has no results, or breaks a rule, the test says so. A test that is not to be
verified does not end in a verdict. On a virtual switch the capture is not examined. All this holds
in whatever order the turns of the run are taken. A test that is left undisturbed takes those that
the schedule gives it, and has an answer just if it does not come to a run without an end. -/
theorem launch_judged (t : Testbed σ) (direction : Direction) (active : Host)
    (muxPorts : List String) (o : Options) (fault : Option (Except Trouble Unit)) :
    ((∀ turns, t.Undisturbed direction active muxPorts o fault turns →
        t.launch direction active muxPorts o fault =
          t.launchAlong direction active muxPorts o fault turns) ∧
      (∀ a, (t.launch direction active muxPorts o fault).result = some a →
        ∃ turns, t.Undisturbed direction active muxPorts o fault turns) ∧
      ((t.launch direction active muxPorts o fault).result = none ↔
        ∃ final, t.Ran direction active muxPorts o fault final ∧ final.outcome? = none)) ∧
    (∀ turns a, (t.launchAlong direction active muxPorts o fault turns).result = some a →
      (o.verify = true → t.Judges direction active o
        (t.launchAlong direction active muxPorts o fault turns).finished a) ∧
      (o.verify = false → ∀ v, a ≠ .error (.verdict v))) ∧
    (active.isVirtual = true → ∀ s turns, .examine ∉
      ((Config.initial s).run t.driver (t.request direction active o fault) turns).trace) := by
  refine ⟨⟨fun turns => launch_of_undisturbed, fun a => exists_undisturbed, launch_eq_none_iff⟩,
    fun turns a ha => ⟨fun hverify => ?_, fun hverify => ?_⟩, examine_not_mem_trace⟩
  · cases hfinished : (t.launchAlong direction active muxPorts o fault turns).finished with
    | none => exact judges_none (launchAlong_none ha hfinished).1
    | some f =>
      rw [launchAlong_some ha hfinished]
      exact judges_conclude hverify f
  · cases hfinished : (t.launchAlong direction active muxPorts o fault turns).finished with
    | none => exact (launchAlong_none ha hfinished).2
    | some f =>
      rw [launchAlong_some ha hfinished]
      exact conclude_of_unverified hverify

/-- One run with results that pass, and one with results that do not; on a virtual switch the same
run is not judged. -/
theorem launch_judged_passes :
    let good : Deliveries := .ofList [(⟨"10.0.0.9"⟩, ⟨2, 2, [], [], 0, 0⟩)]
    let bad : Deliveries := .ofList [(⟨"10.0.0.9"⟩, ⟨2, 1, [], [], 0, 1⟩)]
    let d (ds : Deliveries) : Driver Bool :=
      { generate := fun _ _ => .ok false
        act := fun _ reported => if reported then .finish true else .report true
        examine := .ok
        results := fun _ => some ds }
    let upper : Host := ⟨"upper-tor", []⟩
    let virtual : Host := .ofAsic "upper-tor" Host.virtualAsic
    let t (ds : Deliveries) : Testbed Bool :=
      ⟨[upper, ⟨"lower-tor", []⟩], .activeStandby, ⟨⟨0⟩, ⟨1⟩, ⟨10⟩⟩, ⟨100, 10, 10, 10, 10⟩, d ds,
        fun _ => .ok false⟩
    let o : Options := { Options.unset with verify := true }
    let f (examined : Bool) : Finished Bool := ⟨true, false, examined⟩
    let turns : List Turn :=
      [.coordinator, .worker, .coordinator, .worker, .coordinator, .coordinator]
    (((t good).launch .t1ToSoc upper [] o none).result = some (.ok (some good)) ∧
      (t good).Judges .t1ToSoc upper o (some (f true)) (.ok (some good))) ∧
    (∃ report, ((t bad).launchAlong .t1ToSoc upper [] o none turns).result =
        some (.error (.verdict (.failed report))) ∧
      (t bad).Judges .t1ToSoc upper o (some (f true)) (.error (.verdict (.failed report)))) ∧
    (((t bad).launchAlong .t1ToSoc virtual [] o none turns).result = some (.ok none) ∧
      (t bad).Judges .t1ToSoc virtual o (some (f false)) (.ok none) ∧
      .examine ∉ ((Config.initial false).run (d bad) ((t bad).request .t1ToSoc virtual o none)
        turns).trace) ∧
    ((t bad).launchAlong .t1ToSoc upper [] Options.unset none turns).result =
        some (.ok (some bad)) ∧
      ∀ v, (.ok (some bad) : Except HarnessError (Option Deliveries)) ≠ .error (.verdict v) := by
  intro good bad d upper virtual t o f turns
  let undisturbed : List Turn :=
    [.coordinator, .worker, .worker, .coordinator, .coordinator, .coordinator]
  have hundisturbed : (t good).Undisturbed .t1ToSoc upper [] o none undisturbed := by
    intro peer s _ hs
    obtain rfl : false = s := Except.ok.inj hs
    exact ⟨rfl, rfl, rfl, rfl, rfl, rfl, rfl⟩
  have hgood : ((t good).launchAlong .t1ToSoc upper [] o none undisturbed).result =
      some (.ok (some good)) := by
    dsimp only [t, d, o, good, upper, undisturbed]
    rfl
  have hbad : ∃ report, ((t bad).launchAlong .t1ToSoc upper [] o none turns).result =
      some (.error (.verdict (.failed report))) := by
    dsimp only [t, d, o, bad, upper, turns]
    exact ⟨_, rfl⟩
  obtain ⟨report, hbad⟩ := hbad
  have hvirtual : ((t bad).launchAlong .t1ToSoc virtual [] o none turns).result =
      some (.ok none) := by
    dsimp only [t, d, o, bad, upper, virtual, turns]
    rfl
  have hunset : ((t bad).launchAlong .t1ToSoc upper [] Options.unset none turns).result =
      some (.ok (some bad)) := by
    dsimp only [t, d, bad, upper, turns]
    rfl
  refine ⟨⟨?_, ?_⟩, ⟨_, hbad, ?_⟩, ⟨hvirtual, ?_, ?_⟩, hunset, ?_⟩
  · rw [(launch_judged (t good) .t1ToSoc upper [] o none).1.1 _ hundisturbed]
    exact hgood
  · exact ((launch_judged (t good) .t1ToSoc upper [] o none).2.1 _ _ hgood).1 rfl
  · exact ((launch_judged (t bad) .t1ToSoc upper [] o none).2.1 _ _ hbad).1 rfl
  · exact ((launch_judged (t bad) .t1ToSoc virtual [] o none).2.1 _ _ hvirtual).1 rfl
  · exact (launch_judged (t bad) .t1ToSoc virtual [] o none).2.2 (by decide) _ _
  · exact ((launch_judged (t bad) .t1ToSoc upper [] Options.unset none).2.1 _ _ hunset).2 rfl

end Testbed

end Switchover
