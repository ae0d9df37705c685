import Mathlib
import Switchover.Proofs.Testbed.Judgement

/-!
Options that a direction does not honour have no effect. The options reach a test on three ways:
what its driver is set up for, what its run is asked to do, and the thresholds of its verdict. On
each of them only what the direction honours gets through. So a test is what it is without the other
options, and two tests whose options differ in others cannot be told apart, in whatever order the
turns of their runs are taken.
-/
namespace Switchover

namespace Options
variable {direction : Direction} {o o' : Options}

/-- Whether two sets of options agree on all that a direction honours. -/
structure AgreeFor (direction : Direction) (o o' : Options) : Prop where
  delay : o.delay = o'.delay
  allowedOutages : o.allowedOutages = o'.allowedOutages
  verify : o.verify = o'.verify
  sendInterval : o.sendInterval = o'.sendInterval
  stopAfter : o.stopAfter = o'.stopAfter
  vlanPort : direction ≠ .serverToServer → o.vlanPort = o'.vlanPort
  allowMissingBefore : direction = .t1ToServer → o.allowMissingBefore = o'.allowMissingBefore
  allowedDuplication : direction = .t1ToServer ∨ direction = .t1ToSoc →
    o.allowedDuplication = o'.allowedDuplication
  bridging : direction = .t1ToServer ∨ direction = .t1ToSoc → o.bridging = o'.bridging
  randomTarget : direction = .serverToT1 → o.randomTarget = o'.randomTarget

/-- The options without those that a direction does not honour. -/
def honouredIn (direction : Direction) (o : Options) : Options :=
  { o with
    vlanPort := if direction = .serverToServer then none else o.vlanPort
    allowMissingBefore := if direction = .t1ToServer then o.allowMissingBefore else false
    allowedDuplication :=
      if direction = .t1ToServer ∨ direction = .t1ToSoc then o.allowedDuplication else none
    bridging := if direction = .t1ToServer ∨ direction = .t1ToSoc then o.bridging else false
    randomTarget := if direction = .serverToT1 then o.randomTarget else none }

theorem AgreeFor.honouredIn_eq (h : AgreeFor direction o o') :
    o.honouredIn direction = o'.honouredIn direction := by
  have hport : (if direction = .serverToServer then none else o.vlanPort) =
      if direction = .serverToServer then none else o'.vlanPort :=
    ite_congr rfl (fun _ => rfl) h.vlanPort
  have hmissing := if_ctx_congr Iff.rfl h.allowMissingBefore fun _ => Eq.refl false
  have hduplication := if_ctx_congr Iff.rfl h.allowedDuplication fun _ => Eq.refl none
  have hbridging := if_ctx_congr Iff.rfl h.bridging fun _ => Eq.refl false
  have htarget := if_ctx_congr Iff.rfl h.randomTarget fun _ => Eq.refl none
  rw [honouredIn, honouredIn, h.delay, h.allowedOutages, h.verify, h.sendInterval, h.stopAfter,
    hport, hmissing, hduplication, hbridging, htarget]

/-! ### The three ways -/

theorem destination_honouredIn (direction : Direction) (o : Options) (muxPorts : List String) :
    (o.honouredIn direction).destination muxPorts direction = o.destination muxPorts direction := by
  cases direction <;> rfl

theorem randomTargetFor_honouredIn (direction : Direction) (o : Options) :
    (o.honouredIn direction).randomTargetFor direction = o.randomTargetFor direction := by
  cases direction <;> rfl

theorem thresholds_honouredIn (direction : Direction) (o : Options) :
    (Profile.of direction).thresholds (o.honouredIn direction) =
      (Profile.of direction).thresholds o := by
  cases direction <;> rfl

end Options

namespace Testbed
variable {σ : Type}

section Honoured
variable (t : Testbed σ) (direction : Direction) (active peer : Host) (muxPorts : List String)
  (o : Options) (fault : Option (Except Trouble Unit))

theorem setup_honouredIn : t.setup direction active peer muxPorts (o.honouredIn direction) =
    t.setup direction active peer muxPorts o := by
  rw [setup, setup, Options.destination_honouredIn, Options.randomTargetFor_honouredIn]
  rfl

theorem request_honouredIn : t.request direction active (o.honouredIn direction) fault =
    t.request direction active o fault :=
  rfl

theorem conclude_honouredIn (f : Finished σ) :
    t.conclude direction active (o.honouredIn direction) f = t.conclude direction active o f := by
  rw [conclude, conclude, Options.thresholds_honouredIn]
  rfl

/-- A test goes as it would without the options that the direction does not honour. -/
theorem launchBy_honouredIn (lead : Request → σ → Config σ) :
    t.launchBy lead direction active muxPorts (o.honouredIn direction) fault =
      t.launchBy lead direction active muxPorts o fault := by
  simp only [launchBy, setup_honouredIn, conclude_honouredIn, request_honouredIn]

end Honoured

/-- Options that agree on what a direction honours ask for the same driver, amount to the same
thresholds and lead to the same answer, in whatever order the turns of the run are taken. -/
theorem launch_agrees (t : Testbed σ) (direction : Direction) (active : Host)
    (muxPorts : List String) (fault : Option (Except Trouble Unit)) {o o' : Options}
    (h : Options.AgreeFor direction o o') :
    (∀ peer, t.setup direction active peer muxPorts o =
      t.setup direction active peer muxPorts o') ∧
    (Profile.of direction).thresholds o = (Profile.of direction).thresholds o' ∧
    t.launch direction active muxPorts o fault = t.launch direction active muxPorts o' fault ∧
    ∀ turns, t.launchAlong direction active muxPorts o fault turns =
      t.launchAlong direction active muxPorts o' fault turns := by
  have hview := h.honouredIn_eq
  have hlaunch (lead : Request → σ → Config σ) :
      t.launchBy lead direction active muxPorts o fault =
        t.launchBy lead direction active muxPorts o' fault := by
    rw [← launchBy_honouredIn, hview, launchBy_honouredIn]
  refine ⟨fun peer => ?_, ?_, hlaunch _, fun turns => hlaunch _⟩
  · rw [← setup_honouredIn, hview, setup_honouredIn]
  · rw [← Options.thresholds_honouredIn, hview, Options.thresholds_honouredIn]

/-- Between servers, five options are not honoured. Towards the servers they make a difference. -/
theorem launch_agrees_between_servers :
    let d : Driver Bool :=
      { generate := fun _ _ => .ok false
        act := fun _ reported => if reported then .finish true else .report true
        examine := .ok
        results := fun _ => some (.ofList [(⟨"10.0.0.9"⟩, ⟨4, 2, [], [], 2, 0⟩)]) }
    let upper : Host := ⟨"upper-tor", []⟩
    let t : Testbed Bool :=
      ⟨[upper, ⟨"lower-tor", []⟩], .activeStandby, ⟨⟨0⟩, ⟨1⟩, ⟨10⟩⟩, ⟨100, 10, 10, 10, 10⟩, d,
        fun _ => .ok false⟩
    let o : Options := { Options.unset with delay := 1, verify := true }
    let o' : Options :=
      { o with
        vlanPort := some "Ethernet8", allowMissingBefore := true,
        allowedDuplication := some (.bursts 3), bridging := true, randomTarget := some true }
    Options.AgreeFor .serverToServer o o' ∧
    t.launch .serverToServer upper ["Ethernet0", "Ethernet4"] o none =
      t.launch .serverToServer upper ["Ethernet0", "Ethernet4"] o' none ∧
    (Profile.of .t1ToServer).thresholds o ≠ (Profile.of .t1ToServer).thresholds o' := by
  intro d upper t o o'
  have hagree : Options.AgreeFor .serverToServer o o' :=
    ⟨rfl, rfl, rfl, rfl, rfl, fun h => absurd rfl h, nofun, by decide, by decide, nofun⟩
  obtain ⟨-, -, hlaunch, -⟩ :=
    launch_agrees t .serverToServer upper ["Ethernet0", "Ethernet4"] none hagree
  exact ⟨hagree, hlaunch, fun h => absurd (congrArg Thresholds.bridging h) (by decide)⟩

end Testbed

end Switchover
