import Mathlib
import Switchover.Proofs.Run.Cancellation

/-!
The time that the worker is given. The coordinator looks at the worker at once, at once again, and
then once in every period. Each look either finds that the worker has ended, or that its time is
over, or is followed by another one; that the worker has ended counts first. A look that is followed
by another was made within the time, so there are at most three more of them than there are whole
periods in it. Hence the wait comes to its end wherever the clock goes on and the coordinator keeps
getting its turns, whatever the worker does.
-/
namespace Switchover

/-- How far the clock goes on in a turn. -/
def Turn.nanos : Turn → Nat
  | .clock nanos => nanos
  | .worker | .coordinator => 0

/-- The first turns of an unending order of turns. -/
def firstTurns (turns : Nat → Turn) (n : Nat) : List Turn :=
  (List.range n).map turns

theorem firstTurns_succ (turns : Nat → Turn) (n : Nat) :
    firstTurns turns (n + 1) = firstTurns turns n ++ [turns n] := by
  rw [firstTurns, List.range_succ, List.map_append]
  rfl

/-- Whether in an unending order of turns the coordinator keeps getting its turns and the clock
reaches every time. -/
structure Fair (turns : Nat → Turn) : Prop where
  coordinator : ∀ n, ∃ m, n ≤ m ∧ turns m = .coordinator
  clock : ∀ time, ∃ n, time ≤ ((firstTurns turns n).map Turn.nanos).sum

/-- The order in which the coordinator, the worker and the clock take turns one after the other. -/
def roundRobin (nanos n : Nat) : Turn :=
  match n % 3 with
  | 0 => .coordinator
  | 1 => .worker
  | _ => .clock nanos

theorem sum_nanos_roundRobin (nanos rounds : Nat) :
    ((firstTurns (roundRobin nanos) (3 * rounds)).map Turn.nanos).sum = rounds * nanos := by
  induction rounds with
  | zero => simp [firstTurns]
  | succ rounds ih =>
    have hcoordinator : roundRobin nanos (3 * rounds) = .coordinator := by simp [roundRobin]
    have hworker : roundRobin nanos (3 * rounds + 1) = .worker := by simp [roundRobin]
    have hclock : roundRobin nanos (3 * rounds + 2) = .clock nanos := by simp [roundRobin]
    rw [Nat.mul_succ, firstTurns_succ, firstTurns_succ, firstTurns_succ, hcoordinator, hworker,
      hclock, Nat.add_mul]
    simp [ih, Turn.nanos]

theorem fair_roundRobin {nanos : Nat} (h : 0 < nanos) : Fair (roundRobin nanos) where
  coordinator n := ⟨3 * n, Nat.le_mul_of_pos_left n (by decide), by simp [roundRobin]⟩
  clock time := ⟨3 * time, by
    rw [sum_nanos_roundRobin]
    exact Nat.le_mul_of_pos_right time h⟩

namespace Config
variable {σ : Type} {d : Driver σ} {r : Request} {s : σ} {c c' : Config σ}
  {since window looks : Nat}

/-- Whether a turn of the coordinator is a look at a worker that is given its time. -/
def looksNow (r : Request) (c : Config σ) : Bool :=
  match c.phase with
  | .draining since _ looks => nextLook r since looks ≤ c.now
  | _ => false

/-- How often the coordinator looks at a worker that is given its time. -/
def looksIn (d : Driver σ) (r : Request) (c : Config σ) : List Turn → Nat
  | [] => 0
  | turn :: turns =>
    (if turn = .coordinator ∧ c.looksNow r then 1 else 0) + looksIn d r (c.step d r turn) turns

/-- What a turn makes of the wait for a worker that is given its time: only a look ends it, with a
worker that has ended, or else with one whose time is over. -/
structure Drains (d : Driver σ) (r : Request) (since window looks : Nat) (c : Config σ)
    (turn : Turn) : Prop where
  finished : (c.step d r turn).phase = .joining (.over false) ↔
    turn = .coordinator ∧ c.looksNow r ∧ ∃ how, c.worker = .ended how
  stopped : (c.step d r turn).phase = .joining (.over true) ↔
    turn = .coordinator ∧ c.looksNow r ∧ (∀ how, c.worker ≠ .ended how) ∧ since + window ≤ c.now
  again : (c.step d r turn).phase = .draining since window (looks + 1) ↔
    turn = .coordinator ∧ c.looksNow r ∧ (∀ how, c.worker ≠ .ended how) ∧ c.now < since + window
  waits : (c.step d r turn).phase = .draining since window looks ↔
    ¬ (turn = .coordinator ∧ c.looksNow r)

/-! ### One turn -/

/-- Once the fault is over, a worker that is given a time gets it. -/
theorem draining_of_faultOver {time : Duration} (hstop : r.stopAfter = some time)
    (h : Injects r c ∧ r.fault = some (.ok ()) ∨ c.Finds .seen ∧ r.fault = none) :
    (c.step d r .coordinator).phase = .draining c.now time.nanos 0 := by
  rw [step, coordinatorStep]
  rcases h with ⟨⟨faultAt, hphase, hdue, -⟩, hfault⟩ | ⟨⟨deadline, hphase, hready⟩, hfault⟩
  · simp only [hphase, if_pos hdue, Config.inject, hfault, afterFault, hstop]
    rfl
  · simp only [hphase, if_pos hready, afterReady, hfault, afterFault, hstop]
    rfl

theorem looksNow_iff (hphase : c.phase = .draining since window looks) :
    c.looksNow r = true ↔ nextLook r since looks ≤ c.now := by
  rw [looksNow, hphase]
  exact decide_eq_true_iff

theorem drains_of_waits {turn : Turn} (hphase : c.phase = .draining since window looks)
    (hsame : (c.step d r turn).phase = c.phase) (hno : ¬ (turn = .coordinator ∧ c.looksNow r)) :
    Drains d r since window looks c turn := by
  rw [hphase] at hsame
  constructor <;> rw [hsame]
  · exact iff_of_false nofun fun h => hno ⟨h.1, h.2.1⟩
  · exact iff_of_false nofun fun h => hno ⟨h.1, h.2.1⟩
  · exact iff_of_false (by simp) fun h => hno ⟨h.1, h.2.1⟩
  · exact iff_of_true rfl hno

/-- A look does one of three things, and a turn that is not a look does none. -/
theorem drains (hphase : c.phase = .draining since window looks) (turn : Turn) :
    Drains d r since window looks c turn := by
  cases turn with
  | worker => exact drains_of_waits hphase (works_workerStep d c).phase_eq (by simp)
  | clock nanos => exact drains_of_waits hphase rfl (by simp)
  | coordinator =>
    have hstep : c.step d r .coordinator =
        if nextLook r since looks ≤ c.now then
          if c.ended?.isSome then c.enter (.joining (.over false))
          else if since + window ≤ c.now then c.cancel.enter (.joining (.over true))
          else c.enter (.draining since window (looks + 1))
        else c := by
      rw [step, coordinatorStep]
      simp only [hphase]
    by_cases hlook : nextLook r since looks ≤ c.now
    · have hnow := (looksNow_iff hphase).mpr hlook
      rw [if_pos hlook] at hstep
      cases hended : c.ended? with
      | some how =>
        have hhow := ended?_eq_some.mp hended
        rw [hended, Option.isSome_some, if_pos rfl] at hstep
        constructor <;> simp [hstep, enter, hnow, hhow]
      | none =>
        have hrunning := ended?_eq_none.mp hended
        rw [hended, Option.isSome_none, if_neg Bool.false_ne_true] at hstep
        by_cases hlate : since + window ≤ c.now
        · rw [if_pos hlate] at hstep
          constructor <;> simp [hstep, enter, hnow, hrunning, hlate]
        · rw [if_neg hlate] at hstep
          constructor <;> simp [hstep, enter, hnow, hrunning, hlate, Nat.lt_of_not_le]
    · rw [if_neg hlook] at hstep
      refine drains_of_waits hphase (by rw [hstep]) fun h => hlook ((looksNow_iff hphase).mp h.2)

/-- A look ends the wait or is followed by another one. -/
theorem Drains.of_look {turn : Turn} (h : Drains d r since window looks c turn)
    (hlook : turn = .coordinator ∧ c.looksNow r) :
    (∃ how, c.worker = .ended how) ∧ (c.step d r turn).phase = .joining (.over false) ∨
    (∀ how, c.worker ≠ .ended how) ∧ since + window ≤ c.now ∧
      (c.step d r turn).phase = .joining (.over true) ∨
    c.now < since + window ∧ (c.step d r turn).phase = .draining since window (looks + 1) := by
  by_cases hended : ∃ how, c.worker = .ended how
  · exact .inl ⟨hended, h.finished.mpr ⟨hlook.1, hlook.2, hended⟩⟩
  · have hrunning := not_exists.mp hended
    rcases Nat.lt_or_ge c.now (since + window) with htime | hlate
    · exact .inr (.inr ⟨htime, h.again.mpr ⟨hlook.1, hlook.2, hrunning, htime⟩⟩)
    · exact .inr (.inl ⟨hrunning, hlate, h.stopped.mpr ⟨hlook.1, hlook.2, hrunning, hlate⟩⟩)

/-! ### How often it looks -/

theorem looksIn_concat (c : Config σ) (turns : List Turn) (turn : Turn) :
    looksIn d r c (turns ++ [turn]) = looksIn d r c turns +
      if turn = .coordinator ∧ (c.run d r turns).looksNow r then 1 else 0 := by
  induction turns generalizing c with
  | nil => exact Nat.add_comm ..
  | cons first turns ih =>
    rw [List.cons_append, looksIn, ih, looksIn, ← Nat.add_assoc]
    rfl

/-- A worker that is now given its time has not been looked at. -/
theorem Leads.looks_eq_zero (h : Leads d r c c') (hphase : c'.phase = .draining since window looks)
    (hbefore : c.phase.stage < 3) : looks = 0 := by
  cases h with
  | wait => simp [hphase, Phase.stage] at hbefore
  | drained hdraining | cut hdraining | look hdraining =>
    simp [hdraining, Phase.stage] at hbefore
  | proceed | inject | injectNothing =>
    rcases afterFault_eq r _ with ⟨time, -, h⟩ | ⟨-, h⟩ <;> rw [h] at hphase <;> cases hphase
    rfl
  | @join reason how hjoining => simp [hjoining, Phase.stage] at hbefore
  | _ => cases hphase

/-- A look that is followed by another was made in one of the periods of the time, or at once. -/
theorem looks_le (htime : nextLook r since looks ≤ c.now) (hbefore : c.now < since + window) :
    looks + 1 ≤ window / r.timing.period + 2 := by
  have hpos : 0 < r.timing.period := lt_max_of_lt_right (by decide)
  have hperiods : looks - 1 ≤ window / r.timing.period := by
    rw [Nat.le_div_iff_mul_le hpos]
    rw [nextLook] at htime
    omega
  omega

/-- What is known of the looks in each phase. -/
structure CountsLooks (d : Driver σ) (r : Request) (s : σ) (turns : List Turn) : Prop where
  before : ((initial s).run d r turns).phase.stage < 3 → looksIn d r (initial s) turns = 0
  during : ∀ since window looks, ((initial s).run d r turns).phase = .draining since window looks →
    looksIn d r (initial s) turns = looks ∧ looks ≤ window / r.timing.period + 2
  always : ∀ time, r.stopAfter = some time →
    looksIn d r (initial s) turns ≤ time.nanos / r.timing.period + 3

theorem exists_draining_of_looksNow (h : c.looksNow r = true) :
    ∃ since window looks, c.phase = .draining since window looks := by
  rw [looksNow] at h
  split at h
  · next since window looks hphase => exact ⟨since, window, looks, hphase⟩
  · cases h

theorem exists_draining_of_stage (h : c.phase.stage = 3) :
    ∃ since window looks, c.phase = .draining since window looks := by
  generalize c.phase = phase at h ⊢
  cases phase with
  | draining since window looks => exact ⟨since, window, looks, rfl⟩
  | _ => simp [Phase.stage] at h

theorem CountsLooks.look {turns : List Turn} {turn : Turn} (h : CountsLooks d r s turns)
    (hphase : ((initial s).run d r turns).phase = .draining since window looks)
    (hlook : turn = .coordinator ∧ ((initial s).run d r turns).looksNow r) :
    CountsLooks d r s (turns ++ [turn]) := by
  obtain ⟨hcount, hfew⟩ := h.during since window looks hphase
  obtain ⟨-, given, hgiven, hwindow⟩ := drains_since_fault turns hphase
  have hmore : looksIn d r (initial s) (turns ++ [turn]) = looks + 1 := by
    rw [looksIn_concat, if_pos hlook, hcount]
  refine ⟨fun hstage => ?_, fun since' window' looks' hphase' => ?_, fun time htime => ?_⟩
  · rw [run_concat] at hstage
    have hle := stage_le_step (d := d) (r := r) ((initial s).run d r turns) turn
    rw [hphase, Phase.stage] at hle
    omega
  · rw [run_concat] at hphase'
    rcases (drains hphase turn).of_look hlook with ⟨-, hnext⟩ | ⟨-, -, hnext⟩ | ⟨hnow, hnext⟩
    · cases hnext.symm.trans hphase'
    · cases hnext.symm.trans hphase'
    · cases hnext.symm.trans hphase'
      exact ⟨hmore, looks_le ((looksNow_iff hphase).mp hlook.2) hnow⟩
  · obtain rfl := Option.some.inj (hgiven.symm.trans htime)
    rw [hmore, ← hwindow]
    omega

theorem CountsLooks.pass {turns : List Turn} {turn : Turn} (h : CountsLooks d r s turns)
    (hno : ¬ (turn = .coordinator ∧ ((initial s).run d r turns).looksNow r)) :
    CountsLooks d r s (turns ++ [turn]) := by
  have hsame : looksIn d r (initial s) (turns ++ [turn]) = looksIn d r (initial s) turns := by
    rw [looksIn_concat, if_neg hno, Nat.add_zero]
  have hle := stage_le_step (d := d) (r := r) ((initial s).run d r turns) turn
  refine ⟨fun hstage => ?_, fun since window looks hphase => ?_, fun time htime => ?_⟩
  · rw [run_concat] at hstage
    rw [hsame]
    exact h.before (hle.trans_lt hstage)
  · rw [run_concat] at hphase
    rw [hphase, Phase.stage] at hle
    rw [hsame]
    rcases Nat.lt_or_eq_of_le hle with hbefore | hstage
    · cases turn with
      | coordinator =>
        have hzero := (leads_coordinatorStep d r _).looks_eq_zero hphase hbefore
        rw [h.before hbefore, hzero]
        exact ⟨rfl, Nat.zero_le _⟩
      | worker =>
        rw [step, (works_workerStep d _).phase_eq] at hphase
        exact h.during since window looks hphase
      | clock => exact h.during since window looks hphase
    · obtain ⟨since', window', looks', hdraining⟩ := exists_draining_of_stage hstage
      rw [(drains hdraining turn).waits.mpr hno] at hphase
      exact h.during since window looks (hdraining.trans hphase)
  · rw [hsame]
    exact h.always time htime

theorem countsLooks_run (d : Driver σ) (r : Request) (s : σ) (turns : List Turn) :
    CountsLooks d r s turns := by
  induction turns using List.reverseRecOn with
  | nil => exact ⟨fun _ => rfl, nofun, fun _ _ => Nat.zero_le _⟩
  | append_singleton turns turn ih =>
    by_cases hlook : turn = .coordinator ∧ ((initial s).run d r turns).looksNow r
    · obtain ⟨since, window, looks, hphase⟩ := exists_draining_of_looksNow hlook.2
      exact ih.look hphase hlook
    · exact ih.pass hlook

/-! ### That it ends -/

theorem now_step (c : Config σ) (turn : Turn) : (c.step d r turn).now = c.now + turn.nanos := by
  cases turn with
  | clock nanos => rfl
  | worker =>
    have h := works_workerStep d c
    rw [step]
    generalize c.workerStep d = c' at h
    cases h <;> rfl
  | coordinator =>
    have h := leads_coordinatorStep d r c
    rw [step]
    generalize c.coordinatorStep d r = c' at h
    cases h with
    | proceed | inject | injectNothing =>
      rcases afterFault_eq r _ with ⟨time, -, h⟩ | ⟨-, h⟩ <;> rw [h] <;> rfl
    | _ => rfl

/-- The clock shows what it has gone on in the turns. -/
theorem now_run (turns : List Turn) :
    ((initial s).run d r turns).now = (turns.map Turn.nanos).sum := by
  induction turns using List.reverseRecOn with
  | nil => rfl
  | append_singleton turns turn ih =>
    rw [run_concat, now_step, ih, List.map_append, List.sum_append]
    rfl

section Unending
variable {turns : Nat → Turn} {n : Nat}

/-- The state of a run behind its first turns. -/
def after (d : Driver σ) (r : Request) (s : σ) (turns : Nat → Turn) (n : Nat) : Config σ :=
  (initial s).run d r (firstTurns turns n)

theorem after_succ (d : Driver σ) (r : Request) (s : σ) (turns : Nat → Turn) (n : Nat) :
    after d r s turns (n + 1) = (after d r s turns n).step d r (turns n) := by
  rw [after, firstTurns_succ, run_concat]
  rfl

theorem now_after_mono {m : Nat} (h : n ≤ m) :
    (after d r s turns n).now ≤ (after d r s turns m).now := by
  induction m, h using Nat.le_induction with
  | base => exact le_rfl
  | succ m _ ih =>
    rw [after_succ, now_step]
    exact Nat.le_add_right_of_le ih

/-- The next look is made. -/
theorem exists_look (hfair : Fair turns)
    (hphase : (after d r s turns n).phase = .draining since window looks) :
    ∃ m, n ≤ m ∧ (after d r s turns m).phase = .draining since window looks ∧
      turns m = .coordinator ∧ (after d r s turns m).looksNow r := by
  by_contra hnone
  push Not at hnone
  -- without one the coordinator would wait for ever, past the time of its look
  have hwaits : ∀ m, n ≤ m → (after d r s turns m).phase = .draining since window looks := by
    intro m hm
    induction m, hm using Nat.le_induction with
    | base => exact hphase
    | succ m hm ih =>
      rw [after_succ]
      exact (drains ih (turns m)).waits.mpr fun hlook => hnone m hm ih hlook.1 hlook.2
  obtain ⟨k, hk⟩ := hfair.clock (nextLook r since looks)
  obtain ⟨m, hm, hturn⟩ := hfair.coordinator (max n k)
  have hm' : n ≤ m := (Nat.le_max_left n k).trans hm
  refine hnone m hm' (hwaits m hm') hturn ((looksNow_iff (hwaits m hm')).mpr ?_)
  rw [← now_run (d := d) (r := r) (s := s)] at hk
  exact hk.trans (now_after_mono ((Nat.le_max_right n k).trans hm))

/-- Whether the wait for the worker ends with a look at one of the turns, and whether that finds a
worker whose time is over. -/
structure DrainEnds (d : Driver σ) (r : Request) (s : σ) (turns : Nat → Turn) (since window m : Nat)
    (stopped : Bool) : Prop where
  look : turns m = .coordinator ∧ (after d r s turns m).looksNow r
  found : if stopped then
      (∀ how, (after d r s turns m).worker ≠ .ended how) ∧
        since + window ≤ (after d r s turns m).now
    else ∃ how, (after d r s turns m).worker = .ended how
  joins : (after d r s turns (m + 1)).phase = .joining (.over stopped)

/-- The looks come to an end, since there are not many more of them than periods. -/
theorem exists_drainEnds (hfair : Fair turns)
    (hphase : (after d r s turns n).phase = .draining since window looks) :
    ∃ m stopped, n ≤ m ∧ DrainEnds d r s turns since window m stopped := by
  induction hleft : window / r.timing.period + 2 - looks using Nat.strong_induction_on
    generalizing n looks with
  | h left ih =>
    obtain ⟨m, hm, hdraining, hlook⟩ := exists_look hfair hphase
    have hcase := (drains (d := d) hdraining (turns m)).of_look hlook
    rw [← after_succ] at hcase
    rcases hcase with ⟨hended, hnext⟩ | ⟨hrunning, hlate, hnext⟩ | ⟨-, hnext⟩
    · exact ⟨m, false, hm, hlook, hended, hnext⟩
    · exact ⟨m, true, hm, hlook, ⟨hrunning, hlate⟩, hnext⟩
    · have hfew := ((countsLooks_run d r s _).during _ _ _ hnext).2
      obtain ⟨m', stopped, hm', hends⟩ := ih _ (by omega) hnext rfl
      exact ⟨m', stopped, by omega, hends⟩

end Unending

/-- The wait for a worker that is given its time begins when the fault is over, and only then. Only
a look decides it: a worker that has ended is found to have ended, and one that has not is found to
overrun just if its time is over by then. However the turns are taken, the looks are at most three
more than the whole periods in the time. If the clock goes on and the coordinator keeps getting its
turns, the wait ends at one of them. -/
theorem drain_decides (d : Driver σ) (r : Request) (s : σ) {time : Duration}
    (hstop : r.stopAfter = some time) :
    (∀ c : Config σ, Injects r c ∧ r.fault = some (.ok ()) ∨ c.Finds .seen ∧ r.fault = none →
      (c.step d r .coordinator).phase = .draining c.now time.nanos 0) ∧
    (∀ turns since window looks,
      ((initial s).run d r turns).phase = .draining since window looks →
        window = time.nanos ∧ FaultOverAt d r s turns since ∧
        ∀ turn, Drains d r since window looks ((initial s).run d r turns) turn) ∧
    (∀ turns, looksIn d r (initial s) turns ≤ time.nanos / max r.timing.poll.nanos 1000000 + 3) ∧
    ∀ turns, Fair turns → ∀ n since window looks,
      (after d r s turns n).phase = .draining since window looks →
        ∃ m stopped, n ≤ m ∧ DrainEnds d r s turns since window m stopped := by
  refine ⟨fun c => draining_of_faultOver hstop, fun turns since window looks hphase => ?_,
    fun turns => ?_, fun turns hfair n since window looks hphase => exists_drainEnds hfair hphase⟩
  · obtain ⟨hfault, given, hgiven, rfl⟩ := drains_since_fault turns hphase
    obtain rfl := Option.some.inj (hgiven.symm.trans hstop)
    exact ⟨rfl, hfault, drains hphase⟩
  · exact (countsLooks_run d r s turns).always time hstop

/-- A worker that only ends when it is told to is given two and a half milliseconds, with no pause
asked for between two looks: there are at most five of them, and the wait ends. -/
theorem drain_decides_endless :
    let d : Driver Bool :=
      { generate := fun _ _ => .ok false
        act := fun sight reported =>
          if !reported then .report true
          else if sight.cancelled then .finish reported
          else .wait none
        examine := .ok
        results := fun _ => none }
    let r : Request :=
      ⟨⟨"upper-tor", []⟩, .t1ToServer, none, some ⟨2500000⟩, ⟨⟨0⟩, ⟨0⟩, ⟨10⟩⟩⟩
    (∃ m stopped, 4 ≤ m ∧
      DrainEnds d r false (roundRobin 8) 8 2500000 m stopped) ∧
    ∀ turns, looksIn d r (initial false) turns ≤ 5 := by
  intro d r
  have hstop : r.stopAfter = some ⟨2500000⟩ := rfl
  obtain ⟨-, -, hfew, hends⟩ := drain_decides d r false hstop
  have hphase : (after d r false (roundRobin 8) 4).phase = .draining 8 2500000 0 := rfl
  exact ⟨hends _ (fair_roundRobin (by decide)) 4 _ _ _ hphase,
    fun turns => (hfew turns).trans (by decide)⟩

end Config

end Switchover
