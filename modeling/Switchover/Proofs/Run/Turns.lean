import Mathlib
import Switchover.Run.Coordination

/-!
What one turn of a run can do. The worker moves only while it runs, and never touches the phase; it
can cancel its own capture, but it takes no cancellation back. The coordinator's moves are listed
one by one, each with what it was due to. All that holds along a run is derived from these two
lists.
-/
namespace Switchover

namespace Config
variable {σ : Type} {d : Driver σ} {r : Request} {c c' : Config σ}

theorem mem_trace_note (c : Config σ) (e : Event) : e ∈ (c.note e).trace :=
  List.mem_append_right _ (List.mem_singleton_self e)

/-! ### The worker -/

/-- What a turn of the worker makes of a run. -/
inductive Works (d : Driver σ) (c : Config σ) : Config σ → Prop
  | rest : Works d c c
  | report {driver : σ} (hrunning : c.worker = .running)
      (hact : d.act c.sight c.driver = .report driver) :
      Works d c { c.note .ready with ready := true, driver }
  | cancel {driver : σ} (hrunning : c.worker = .running)
      (hact : d.act c.sight c.driver = .cancel driver) :
      Works d c { c.note .selfCancel with cancelled := true, driver }
  | finish {driver : σ} (hrunning : c.worker = .running)
      (hact : d.act c.sight c.driver = .finish driver) :
      Works d c { c.note (.exit c.cancelled) with worker := .ended .finished, driver }
  | fail {why : Trouble} (hrunning : c.worker = .running)
      (hact : d.act c.sight c.driver = .fail why) :
      Works d c { c.note (.exit c.cancelled) with worker := .ended (.failed why) }
  | crash (hrunning : c.worker = .running) (hact : d.act c.sight c.driver = .crash) :
      Works d c { c.note .crash with worker := .ended .crashed }

theorem works_workerStep (d : Driver σ) (c : Config σ) : Works d c (c.workerStep d) := by
  rw [workerStep]
  split
  · next hrunning =>
    split
    · exact .rest
    · next hact => exact .report hrunning hact
    · next hact => exact .cancel hrunning hact
    · next hact => exact .finish hrunning hact
    · next hact => exact .fail hrunning hact
    · next hact => exact .crash hrunning hact
  · exact .rest

namespace Works

theorem eq_of_not_running (h : Works d c c') (hworker : c.worker ≠ .running) : c' = c := by
  cases h with
  | rest => rfl
  | report hrunning | cancel hrunning | finish hrunning | fail hrunning | crash hrunning =>
    exact absurd hrunning hworker

theorem phase_eq (h : Works d c c') : c'.phase = c.phase := by
  cases h <;> rfl

theorem cancelled_mono (h : Works d c c') (hcancelled : c.cancelled = true) :
    c'.cancelled = true := by
  cases h with
  | cancel => rfl
  | _ => exact hcancelled

theorem trace_prefix (h : Works d c c') : c.trace <+: c'.trace := by
  cases h with
  | rest => exact List.prefix_rfl
  | report | cancel | finish | fail | crash => exact List.prefix_append ..

theorem ne_idle (h : Works d c c') (hworker : c.worker ≠ .idle) : c'.worker ≠ .idle := by
  cases h with
  | rest | report | cancel => exact hworker
  | finish | fail | crash => exact nofun

end Works

/-! ### The coordinator -/

/-- What a turn of the coordinator makes of a run. -/
inductive Leads (d : Driver σ) (r : Request) (c : Config σ) : Config σ → Prop
  | wait : Leads d r c c
  | refuse {why : Trouble} (hphase : c.phase = .starting)
      (hgenerate : d.generate r.direction c.driver = .error why) :
      Leads d r c ((c.note (.generate r.direction)).enter (.done (.error (.setup why))))
  | start {driver : σ} (hphase : c.phase = .starting)
      (hgenerate : d.generate r.direction c.driver = .ok driver) :
      Leads d r c
        { (c.note (.generate r.direction)).note .start with
          driver, worker := .running, startedAt := c.now,
          phase := .awaiting (c.now + r.timing.startup.nanos) }
  | settle {deadline : Nat} {fault : Except Trouble Unit} (hphase : c.phase = .awaiting deadline)
      (hready : c.ready = true) (hfault : r.fault = some fault) :
      Leads d r c (c.enter (.settling (c.now + r.timing.settle.nanos)))
  | proceed {deadline : Nat} (hphase : c.phase = .awaiting deadline) (hready : c.ready = true)
      (hfault : r.fault = none) : Leads d r c (c.afterFault r)
  | release {deadline : Nat} {how : WorkerEnd} (hphase : c.phase = .awaiting deadline)
      (hready : c.ready = false) (hended : c.worker = .ended how) :
      Leads d r c (c.enter (.joining .released))
  | expire {deadline : Nat} (hphase : c.phase = .awaiting deadline) (hready : c.ready = false)
      (hended : ∀ how, c.worker ≠ .ended how) (hlate : deadline ≤ c.now) :
      Leads d r c (c.cancel.enter (.joining .expired))
  | inject {faultAt : Nat} (hphase : c.phase = .settling faultAt) (hdue : faultAt ≤ c.now)
      (hfault : r.fault = some (.ok ())) : Leads d r c ((c.note .inject).afterFault r)
  | injectFails {faultAt : Nat} {why : Trouble} (hphase : c.phase = .settling faultAt)
      (hdue : faultAt ≤ c.now) (hfault : r.fault = some (.error why)) :
      Leads d r c ((c.note .inject).cancel.enter (.joining (.faultFailed why)))
  | injectNothing {faultAt : Nat} (hphase : c.phase = .settling faultAt) (hdue : faultAt ≤ c.now)
      (hfault : r.fault = none) : Leads d r c (c.afterFault r)
  | drained {since window looks : Nat} {how : WorkerEnd}
      (hphase : c.phase = .draining since window looks) (hended : c.worker = .ended how)
      (hlook : nextLook r since looks ≤ c.now) : Leads d r c (c.enter (.joining (.over false)))
  | cut {since window looks : Nat} (hphase : c.phase = .draining since window looks)
      (hended : ∀ how, c.worker ≠ .ended how) (hlate : since + window ≤ c.now)
      (hlook : nextLook r since looks ≤ c.now) :
      Leads d r c (c.cancel.enter (.joining (.over true)))
  | look {since window looks : Nat} (hphase : c.phase = .draining since window looks)
      (hended : ∀ how, c.worker ≠ .ended how) (htime : c.now < since + window)
      (hlook : nextLook r since looks ≤ c.now) :
      Leads d r c (c.enter (.draining since window (looks + 1)))
  | join {reason : JoinReason} {how : WorkerEnd} (hphase : c.phase = .joining reason)
      (hended : c.worker = .ended how) :
      Leads d r c ((c.note .join).enter (settleJoin r how reason))
  | skip {stoppedEarly : Bool} (hphase : c.phase = .examining stoppedEarly)
      (hvirtual : r.active.isVirtual = true) :
      Leads d r c (c.enter (.done (.ok ⟨c.driver, stoppedEarly, false⟩)))
  | examineFails {stoppedEarly : Bool} {why : Trouble} (hphase : c.phase = .examining stoppedEarly)
      (hvirtual : r.active.isVirtual = false) (hexamine : d.examine c.driver = .error why) :
      Leads d r c ((c.note .examine).enter (.done (.error (.flowExamination why))))
  | examine {stoppedEarly : Bool} {driver : σ} (hphase : c.phase = .examining stoppedEarly)
      (hvirtual : r.active.isVirtual = false) (hexamine : d.examine c.driver = .ok driver) :
      Leads d r c
        (({ c.note .examine with driver } : Config σ).enter
          (.done (.ok ⟨driver, stoppedEarly, true⟩)))

theorem ended?_eq_some {how : WorkerEnd} : c.ended? = some how ↔ c.worker = .ended how := by
  rw [ended?]
  split <;> simp_all

theorem ended?_eq_none : c.ended? = none ↔ ∀ how, c.worker ≠ .ended how := by
  rw [Option.eq_none_iff_forall_ne_some]
  exact forall_congr' fun how => not_congr ended?_eq_some

theorem leads_coordinatorStep (d : Driver σ) (r : Request) (c : Config σ) :
    Leads d r c (c.coordinatorStep d r) := by
  rw [coordinatorStep]
  split
  · next hphase =>
    dsimp only
    split
    · next hgenerate => exact .refuse hphase hgenerate
    · next hgenerate => exact .start hphase hgenerate
  · next deadline hphase =>
    split_ifs with hready hended hlate
    · rw [afterReady]
      split
      · next hfault => exact .settle hphase hready hfault
      · next hfault => exact .proceed hphase hready hfault
    · obtain ⟨how, hhow⟩ := Option.isSome_iff_exists.mp hended
      exact .release hphase (by simpa using hready) (ended?_eq_some.mp hhow)
    · exact .expire hphase (by simpa using hready) (ended?_eq_none.mp (by simpa using hended)) hlate
    · exact .wait
  · next faultAt hphase =>
    split_ifs with hdue
    · rw [Config.inject]
      split
      · next hfault => exact .injectNothing hphase hdue hfault
      · next hfault => exact .inject hphase hdue hfault
      · next hfault => exact .injectFails hphase hdue hfault
    · exact .wait
  · next since window looks hphase =>
    split_ifs with hlook hended hlate
    · obtain ⟨how, hhow⟩ := Option.isSome_iff_exists.mp hended
      exact .drained hphase (ended?_eq_some.mp hhow) hlook
    · exact .cut hphase (ended?_eq_none.mp (by simpa using hended)) hlate hlook
    · exact .look hphase (ended?_eq_none.mp (by simpa using hended)) (by omega) hlook
    · exact .wait
  · next reason hphase =>
    split
    · next how hhow => exact .join hphase (ended?_eq_some.mp hhow)
    · exact .wait
  · next stoppedEarly hphase =>
    split_ifs with hvirtual
    · exact .skip hphase hvirtual
    · dsimp only
      have hvirtual : r.active.isVirtual = false := by simpa using hvirtual
      split
      · next hexamine => exact .examineFails hphase hvirtual hexamine
      · next hexamine => exact .examine hphase hvirtual hexamine
  · exact .wait

/-! ### Runs -/

theorem run_concat (c : Config σ) (turns : List Turn) (turn : Turn) :
    c.run d r (turns ++ [turn]) = (c.run d r turns).step d r turn := by
  rw [run, run, List.foldl_append]
  rfl

end Config

end Switchover
