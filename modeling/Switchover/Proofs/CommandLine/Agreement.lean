import Mathlib
import Switchover.CommandLine.Run
import Switchover.Proofs.CommandLine.Arguments
import Switchover.Proofs.Delivery.Saved

/-!
Judging a run while it is in memory and judging its saved results. The options of a simulation leave
to every direction the thresholds that `verify` builds from the same delay and the same number of
outages. So a run on a switch that is not virtual passes its own verification exactly if `verify`
succeeds on the results it prints.
-/
namespace Switchover.CommandLine

open Files (Machine)
open Json (Respells)

/-! ### Reading the arguments -/

/-- The command that judges what a simulation printed, by its delay and its number of outages. -/
def SimulateCommand.offline (c : SimulateCommand) (path : String) : VerifyCommand :=
  ⟨path, .plain c.allowedOutages c.delay, false⟩

/-- The arguments that spell such a command. -/
def offlineArguments (path delay count : String) : List String :=
  ["verify", attached "results" path, attached "delay" delay, attached "allowed-disruption" count]

theorem read_offlineArguments {c : SimulateCommand} {path delay count : String}
    (hpath : path ≠ "") (hdelay : seconds? delay = some c.delay)
    (hcount : count? count = some c.allowedOutages) :
    read (offlineArguments path delay count) = .ok ⟨none, .verify (c.offline path)⟩ := by
  have hresults : path? path = some path := by simp [path?, hpath]
  have hverify : Shape.of "verify" = .plain := by decide
  have hread : read (offlineArguments path delay count) =
      readCommand VerifyCommand.parameters .start VerifyCommand.finish none
        [attached "results" path, attached "delay" delay, attached "allowed-disruption" count] := by
    rw [offlineArguments, read, readOptions, hverify]
    rfl
  have hfinish : (c.offline path).finish = some (.verify (c.offline path)) := by
    rw [VerifyCommand.finish, if_neg (by simpa [SimulateCommand.offline] using hpath)]
  have hdraft : readAllOptions
      (settingsParameter.lift (·.1) (fun b a => (a, b.2)) ::
        VerifyCommand.parameters.map (·.lift (·.2) fun b a => (b.1, a)))
      (none, VerifyCommand.start)
      [attached "results" path, attached "delay" delay, attached "allowed-disruption" count] =
        .ok (none, c.offline path) := by
    rw [readAllOptions, readOptions_attached (by decide) rfl rfl (by simp only [hresults]; rfl),
      readOptions_attached (by decide) rfl rfl (by simp only [hdelay]; rfl),
      readOptions_attached (by decide) rfl rfl (by simp only [hcount]; rfl), readOptions]
    rfl
  rw [hread, readCommand]
  dsimp only
  rw [hdraft, Json.ok_bind]
  dsimp only
  rw [hfinish]
  rfl

/-- The program with these arguments answers as the command does. -/
theorem answer_offlineArguments {c : SimulateCommand} {path delay count : String}
    (hpath : path ≠ "") (hdelay : seconds? delay = some c.delay)
    (hcount : count? count = some c.allowedOutages) (machine : Machine Id) (pick : Nat → Nat) :
    answer machine pick (offlineArguments path delay count) =
      (Id.run ((c.offline path).run machine)).answer := by
  rw [answer, read_offlineArguments hpath hdelay hcount]
  rfl

/-! ### Saved results -/

/-- Printed results are read as they were, although a line break follows them. -/
theorem readResults_print {c : SimulateCommand} (hjson : c.json = true) {ds : Deliveries}
    (hds : ds.Ordered) (htimes : ∀ t ∈ ds.times, Respells t) (path : String) :
    VerifyCommand.readResults path (c.print (some ds)) = .ok ds := by
  have hline : Json.Blank ['\n'] := by
    intro c hc
    obtain rfl := List.mem_singleton.mp hc
    rfl
  have hread := Json.decodeText_spells Deliveries.ofJson
    (ds.toJson.spells_indentedChars 0) hline
  have hprint : c.print (some ds) = String.ofList (ds.toJson.indentedChars 0 ++ ['\n']) := by
    rw [SimulateCommand.print, if_pos hjson, String.ofList_append]
    rfl
  rw [VerifyCommand.readResults, hprint, hread, (Deliveries.ofJson_eq_ok hds).mpr htimes]

theorem run_eq {c : VerifyCommand} {machine : Machine Id} {content : String}
    (hcontent : machine.read c.results = .ok content) {ds : Deliveries}
    (hds : VerifyCommand.readResults c.results content = .ok ds) :
    c.run machine = c.judge machine.now ds := by
  have hrun : c.run machine = c.judgeText machine.now content := by
    rw [VerifyCommand.run, hcontent]
    rfl
  rw [hrun, VerifyCommand.judgeText, hds]

/-! ### Verdicts -/

theorem exitCode_answer {o : Outcome} : o.answer.exitCode = 0 ↔ o.trouble = none := by
  rw [Outcome.answer]
  cases o.trouble <;> simp

/-- Results pass the command if their verification gives a report. -/
theorem judge_trouble {c : VerifyCommand} {now : String} {ds : Deliveries} :
    (c.judge now ds).trouble = none ↔ ∃ r, verify c.thresholds.promoted (some ds) = .ok r := by
  rw [VerifyCommand.judge, verify]
  cases evaluate c.thresholds.promoted ds with
  | error e => simp [Outcome.failure]
  | ok r => cases hr : r.passes <;> simp [hr]

theorem verifyAndReport_eq_ok_iff {t : Thresholds} {ds : Deliveries} :
    verifyAndReport true t (some ds) = .ok (some ds) ↔ ∃ r, verify t (some ds) = .ok r := by
  rw [verifyAndReport, if_pos rfl]
  cases verify t (some ds) <;> simp

/-- No direction adds to the thresholds of a simulation, which sets nothing but a delay and a number
of outages. -/
theorem thresholds_options (c : SimulateCommand) (direction : Direction) (path : String) :
    (Profile.of direction).thresholds c.options = (c.offline path).thresholds.promoted := by
  cases direction <;> rfl

/-- Off a virtual switch the results are judged. -/
theorem conclude_eq_ok {σ : Type} {t : Testbed σ} {direction : Direction} {active : Host}
    (hactive : active.isVirtual = false) {o : Options} (hverify : o.verify = true)
    {f : Finished σ} {ds : Deliveries} (hresults : t.driver.results f.driver = some ds) :
    t.conclude direction active o f = .ok (some ds) ↔
      verifyAndReport true ((Profile.of direction).thresholds o) (some ds) = .ok (some ds) := by
  rw [Testbed.conclude, hactive, Bool.and_false, hverify, hresults, if_neg Bool.false_ne_true]
  cases verifyAndReport true ((Profile.of direction).thresholds o) (some ds) <;> simp

/-- A simulation and the command that judges what it printed agree. They judge by the same
thresholds in every direction, and off a virtual switch the results pass the one exactly if they
pass the other. -/
theorem offline_agrees {σ : Type} (t : Testbed σ) (c : SimulateCommand) (path : String) :
    (Profile.of c.direction).thresholds c.options = (c.offline path).thresholds.promoted ∧
    (∀ (delay count : String) (machine : Machine Id) (pick : Nat → Nat), path ≠ "" →
      seconds? delay = some c.delay → count? count = some c.allowedOutages →
      answer machine pick (offlineArguments path delay count) =
        (Id.run ((c.offline path).run machine)).answer) ∧
    ∀ (active : Host) (f : Finished σ) (r : Deliveries) (machine : Machine Id),
      active.isVirtual = false → t.driver.results f.driver = some r → r.Ordered →
      (∀ x ∈ r.times, Respells x) → c.json = true →
      machine.read path = .ok (c.print (some r)) →
      (verifyAndReport true ((Profile.of c.direction).thresholds c.options)
          (t.driver.results f.driver) = .ok (some r) ↔
        (Id.run ((c.offline path).run machine)).answer.exitCode = 0) ∧
      (c.verify = true → (t.conclude c.direction active c.options f = .ok (some r) ↔
        (Id.run ((c.offline path).run machine)).answer.exitCode = 0)) := by
  have hthresholds := thresholds_options c c.direction path
  refine ⟨hthresholds, fun delay count machine pick hpath hdelay hcount =>
    answer_offlineArguments hpath hdelay hcount machine pick, ?_⟩
  intro active f r machine hactive hresults hr htimes hjson hcontent
  have hrun : Id.run ((c.offline path).run machine) = (c.offline path).judge machine.now r :=
    run_eq hcontent (readResults_print hjson hr htimes path)
  have hagree : verifyAndReport true ((Profile.of c.direction).thresholds c.options) (some r) =
      .ok (some r) ↔ (Id.run ((c.offline path).run machine)).answer.exitCode = 0 := by
    rw [hrun, exitCode_answer, judge_trouble, verifyAndReport_eq_ok_iff, hthresholds]
  refine ⟨by rwa [hresults], fun hverify => ?_⟩
  rw [conclude_eq_ok hactive hverify hresults]
  exact hagree

/-- Results with one outage, which is accepted, and results in which the last packet is missing. -/
theorem offline_agrees_both :
    let good : Deliveries := .ofList [(⟨"10.0.0.9"⟩, ⟨5, 3, [⟨1, 4, 0.25, 0.25⟩], [], 0, 0⟩)]
    let bad : Deliveries := .ofList [(⟨"10.0.0.9"⟩, ⟨5, 4, [], [], 0, 1⟩)]
    let c : SimulateCommand :=
      { SimulateCommand.start with
        direction := .t1ToSoc, verify := true, delay := 0.25, allowedOutages := 1, json := true }
    let machine (r : Deliveries) : Machine Id :=
      { read := fun _ => .ok (c.print (some r))
        isPresent := fun _ => true
        isFile := fun _ => true
        copy := fun _ _ => .ok ()
        workingDirectory := .ok "/"
        environment := fun _ => none
        now := "now" }
    let t : Testbed Deliveries :=
      { hosts := [⟨"upper-tor", []⟩, ⟨"lower-tor", []⟩]
        cable := .activeStandby
        timing := ⟨⟨0⟩, ⟨1⟩, ⟨10⟩⟩
        sendIntervals := ⟨100, 10, 10, 10, 10⟩
        driver := ⟨fun _ => .ok, fun _ => .finish, .ok, some⟩
        create := fun _ => .ok good }
    let arguments := offlineArguments "results.json" "0.25" "1"
    t.conclude .t1ToSoc ⟨"upper-tor", []⟩ c.options ⟨good, false, true⟩ = .ok (some good) ∧
      (answer (machine good) id arguments).exitCode = 0 ∧
      t.conclude .t1ToSoc ⟨"upper-tor", []⟩ c.options ⟨bad, false, true⟩ ≠ .ok (some bad) ∧
      (answer (machine bad) id arguments).exitCode ≠ 0 := by
  intro good bad c machine t arguments
  obtain ⟨-, hanswer, hagree⟩ := offline_agrees t c "results.json"
  have hread : ∀ r, answer (machine r) id arguments =
      (Id.run ((c.offline "results.json").run (machine r))).answer := fun r =>
    hanswer "0.25" "1" (machine r) id (by decide) (by decide +kernel) (by decide)
  have hgood : ∃ report, verify ((Profile.of .t1ToSoc).thresholds c.options) (some good) =
      .ok report := by
    dsimp only [c, good]
    exact ⟨_, rfl⟩
  have hbad : ∃ e, verify ((Profile.of .t1ToSoc).thresholds c.options) (some bad) =
      .error e := by
    dsimp only [c, bad]
    exact ⟨_, rfl⟩
  have htimes : ∀ x ∈ good.times, Respells x := by
    have hall : good.times = [0.25, 0.25] := by rfl
    rw [hall]
    simpa using respells_quarter
  have hpass := hagree ⟨"upper-tor", []⟩ ⟨good, false, true⟩ good (machine good) rfl rfl
    (EndpointMap.ordered_ofList _) htimes rfl rfl
  have hfail := hagree ⟨"upper-tor", []⟩ ⟨bad, false, true⟩ bad (machine bad) rfl rfl
    (EndpointMap.ordered_ofList _) nofun rfl rfl
  have hzero := hpass.1.mp (verifyAndReport_eq_ok_iff.mpr hgood)
  have hone := mt hfail.1.mpr fun h => by
    obtain ⟨e, he⟩ := hbad
    obtain ⟨report, hreport⟩ := verifyAndReport_eq_ok_iff.mp h
    rw [he] at hreport
    cases hreport
  rw [hread, hread]
  exact ⟨(hpass.2 rfl).mpr hzero, hzero, mt (hfail.2 rfl).mp hone, hone⟩

end Switchover.CommandLine
