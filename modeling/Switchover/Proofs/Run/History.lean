import Mathlib
import Switchover.Proofs.Run.Join

/-!
The history of a run. The coordinator goes through its phases in one direction, so what it notes on
its way from one to the next happens at most once, and two turns that both lead past the same phase
are one and the same. Facts about the past are told by the turn at which they came about.
-/
namespace Switchover

/-- How far the coordinator has come when it is in a phase. -/
def Phase.stage {σ : Type} : Phase σ → Nat
  | .starting => 0
  | .awaiting _ => 1
  | .settling _ => 2
  | .draining _ _ _ => 3
  | .joining _ => 4
  | .examining _ => 5
  | .done _ => 6

/-- The stage that the coordinator reaches as it notes an event; the worker's events have none. -/
def Event.stage? : Event → Option Nat
  | .generate _ | .start => some 1
  | .inject => some 3
  | .cancel => some 4
  | .join => some 5
  | .examine => some 6
  | .ready | .selfCancel | .exit _ | .crash => none

/-- How far the worker has come. -/
def WorkerStatus.stage : WorkerStatus → Nat
  | .idle => 0
  | .running => 1
  | .ended _ => 2

/-- How the coordinator's wait for traffic came to its end. -/
inductive WaitEnd where
  /-- The report of traffic was seen. -/
  | seen
  /-- The worker ended without one. -/
  | released
  | expired
  deriving DecidableEq

/-- The last move of a worker; if it finishes, it leaves a state to be examined. -/
inductive LastMove (σ : Type) where
  | finish (left : σ)
  | fail (why : Trouble)
  | crash

/-- The last move as a move. -/
def LastMove.move {σ : Type} : LastMove σ → Move σ
  | .finish left => .finish left
  | .fail why => .fail why
  | .crash => .crash

/-- The last move of a worker that has come to an end and left a state. -/
def WorkerEnd.lastMove {σ : Type} (left : σ) : WorkerEnd → LastMove σ
  | .finished => .finish left
  | .failed why => .fail why
  | .crashed => .crash

namespace Config
variable {σ : Type} {d : Driver σ} {r : Request} {s : σ} {c c' : Config σ}

/-- Whether an event comes about from one state to another. -/
def Happens (e : Event) (c c' : Config σ) : Prop :=
  c.trace.count e < c'.trace.count e

/-- Whether a turn was taken in a state with a property. -/
def TurnAt (d : Driver σ) (r : Request) (s : σ) (turns : List Turn) (turn : Turn)
    (p : Config σ → Prop) : Prop :=
  ∃ before after, turns = before ++ turn :: after ∧ p ((initial s).run d r before)

/-- Whether a look of the coordinator ends its wait for traffic, and how. -/
def Finds (c : Config σ) : WaitEnd → Prop
  | .seen => ∃ deadline, c.phase = .awaiting deadline ∧ c.ready = true
  | .released => ∃ deadline how, c.phase = .awaiting deadline ∧ c.ready = false ∧
      c.worker = .ended how
  | .expired => ∃ deadline, c.phase = .awaiting deadline ∧ c.ready = false ∧
      (∀ how, c.worker ≠ .ended how) ∧ deadline ≤ c.now

/-- Whether the wait for traffic came to such an end at one of the turns. -/
def WaitEnded (d : Driver σ) (r : Request) (s : σ) (turns : List Turn) (wait : WaitEnd) : Prop :=
  TurnAt d r s turns .coordinator fun c => c.Finds wait

/-- Whether the worker made a last move at one of the turns. -/
def Ended (d : Driver σ) (r : Request) (s : σ) (turns : List Turn) (last : LastMove σ) : Prop :=
  TurnAt d r s turns .worker fun c => c.worker = .running ∧ d.act c.sight c.driver = last.move

/-- Whether the fault is due at a look of the coordinator. -/
def Injects (r : Request) (c : Config σ) : Prop :=
  ∃ faultAt, c.phase = .settling faultAt ∧ faultAt ≤ c.now ∧ r.fault ≠ none

/-- Whether the capture is to be examined at a look of the coordinator. -/
def Examines (r : Request) (c : Config σ) : Prop :=
  ∃ stoppedEarly, c.phase = .examining stoppedEarly ∧ r.active.isVirtual = false

/-! ### One direction -/

/-- After the fault only the phase changes, to the worker's own time or straight to the join. -/
theorem afterFault_eq (r : Request) (c : Config σ) :
    (∃ window, r.stopAfter = some window ∧
      c.afterFault r = c.enter (.draining c.now window.nanos 0)) ∨
    r.stopAfter = none ∧ c.afterFault r = c.enter (.joining (.over false)) := by
  rw [afterFault]
  cases r.stopAfter with
  | some window => exact .inl ⟨window, rfl, rfl⟩
  | none => exact .inr ⟨rfl, rfl⟩

theorem trace_afterFault (r : Request) (c : Config σ) : (c.afterFault r).trace = c.trace := by
  rcases afterFault_eq r c with ⟨window, -, h⟩ | ⟨-, h⟩ <;> rw [h] <;> rfl

theorem stage_afterFault (r : Request) (c : Config σ) : 3 ≤ (c.afterFault r).phase.stage := by
  rcases afterFault_eq r c with ⟨window, -, h⟩ | ⟨-, h⟩ <;> rw [h]
  · exact le_refl 3
  · exact Nat.le_succ 3

theorem stage_settleJoin (r : Request) (how : WorkerEnd) (reason : JoinReason) :
    5 ≤ (settleJoin r how reason : Phase σ).stage := by
  rcases reason with _ | _ | _ | _
  · cases how <;> simp [settleJoin, Phase.stage]
  · simp [settleJoin, Phase.stage]
  · simp [settleJoin, Phase.stage]
  · cases how <;> simp [settleJoin, Phase.stage]

/-- What the coordinator notes in one turn, it notes once, and on its way to a later stage. -/
theorem Leads.exists_news (h : Leads d r c c') :
    c.phase.stage ≤ c'.phase.stage ∧ ∃ news, c'.trace = c.trace ++ news ∧ news.Nodup ∧
      ∀ e ∈ news, ∃ k, e.stage? = some k ∧ c.phase.stage < k ∧ k ≤ c'.phase.stage := by
  cases h with
  | wait => exact ⟨le_rfl, [], by simp⟩
  | refuse hphase =>
    refine ⟨by simp [hphase, Phase.stage], [.generate r.direction], rfl, by simp, ?_⟩
    simp [hphase, Phase.stage, Event.stage?, enter]
  | start hphase =>
    refine ⟨by simp [hphase, Phase.stage], [.generate r.direction, .start], ?_, by simp, ?_⟩
    · simp [note]
    · simp [hphase, Phase.stage, Event.stage?]
  | settle hphase | release hphase | drained hphase | look hphase | skip hphase =>
    exact ⟨by simp [hphase, Phase.stage, enter], [], by simp [enter]⟩
  | proceed hphase | injectNothing hphase =>
    have hstage := stage_afterFault r c
    exact ⟨le_trans (by simp [hphase, Phase.stage]) hstage, [], by simp [trace_afterFault]⟩
  | expire hphase | cut hphase =>
    refine ⟨by simp [hphase, Phase.stage, enter], [.cancel], rfl, by simp, ?_⟩
    simp [hphase, Phase.stage, Event.stage?, enter]
  | inject hphase =>
    have hstage := stage_afterFault r (c.note .inject)
    refine ⟨le_trans (by simp [hphase, Phase.stage]) hstage, [.inject], trace_afterFault ..,
      by simp, ?_⟩
    simpa [hphase, Phase.stage, Event.stage?] using hstage
  | injectFails hphase =>
    refine ⟨by simp [hphase, Phase.stage, enter], [.inject, .cancel], ?_, by simp, ?_⟩
    · simp [enter, cancel, note]
    · simp [hphase, Phase.stage, Event.stage?, enter]
  | @join reason how hphase =>
    have hstage := stage_settleJoin (σ := σ) r how reason
    refine ⟨le_trans (by simp [hphase, Phase.stage]) hstage, [.join], rfl, by simp, ?_⟩
    simpa [hphase, Phase.stage, Event.stage?, enter] using hstage
  | examineFails hphase | examine hphase =>
    refine ⟨by simp [hphase, Phase.stage, enter], [.examine], rfl, by simp, ?_⟩
    simp [hphase, Phase.stage, Event.stage?, enter]

theorem Works.exists_news (h : Works d c c') :
    ∃ news, c'.trace = c.trace ++ news ∧ ∀ e ∈ news, e.stage? = none := by
  cases h with
  | rest => exact ⟨[], by simp⟩
  | report => exact ⟨[.ready], by simp [note, Event.stage?]⟩
  | cancel => exact ⟨[.selfCancel], by simp [note, Event.stage?]⟩
  | finish | fail => exact ⟨[.exit c.cancelled], by simp [note, Event.stage?]⟩
  | crash => exact ⟨[.crash], by simp [note, Event.stage?]⟩

/-- A worker that has ended does not move. -/
theorem Works.eq_of_ended {how : WorkerEnd} (h : Works d c c') (hended : c.worker = .ended how) :
    c' = c := by
  refine h.eq_of_not_running fun hrunning => ?_
  cases hended.symm.trans hrunning

theorem stage_le_step (c : Config σ) (turn : Turn) :
    c.phase.stage ≤ (c.step d r turn).phase.stage := by
  cases turn with
  | worker => exact (congrArg Phase.stage (works_workerStep d c).phase_eq).ge
  | coordinator => exact (leads_coordinatorStep d r c).exists_news.1
  | clock => exact le_rfl

theorem trace_prefix_step (c : Config σ) (turn : Turn) : c.trace <+: (c.step d r turn).trace := by
  cases turn with
  | worker => exact Works.trace_prefix (works_workerStep d c)
  | coordinator =>
    obtain ⟨-, news, htrace, -⟩ := (leads_coordinatorStep d r c).exists_news
    exact ⟨news, htrace.symm⟩
  | clock => exact List.prefix_rfl

/-- The coordinator starts the worker and then leaves it alone. -/
theorem Leads.worker_eq (h : Leads d r c c') : c'.worker = c.worker ∨
    c.phase = .starting ∧ c'.worker = .running := by
  cases h with
  | start hphase => exact .inr ⟨hphase, rfl⟩
  | proceed | inject | injectNothing => exact .inl (by rw [afterFault]; split <;> rfl)
  | _ => exact .inl rfl

/-! ### Turns of a run -/

variable {turns : List Turn} {turn turn' : Turn} {p q : Config σ → Prop}

theorem not_turnAt_nil : ¬ TurnAt d r s [] turn p := by
  rintro ⟨before, after, hturns, -⟩
  simp at hturns

theorem TurnAt.last (hp : p ((initial s).run d r turns)) :
    TurnAt d r s (turns ++ [turn]) turn p :=
  ⟨turns, [], rfl, hp⟩

theorem TurnAt.append (h : TurnAt d r s turns turn p) (more : List Turn) :
    TurnAt d r s (turns ++ more) turn p := by
  obtain ⟨before, after, rfl, hp⟩ := h
  exact ⟨before, after ++ more, by simp, hp⟩

theorem TurnAt.concat (h : TurnAt d r s turns turn p) (turn' : Turn) :
    TurnAt d r s (turns ++ [turn']) turn p :=
  h.append [turn']

theorem turnAt_concat : TurnAt d r s (turns ++ [turn']) turn p ↔
    TurnAt d r s turns turn p ∨ turn' = turn ∧ p ((initial s).run d r turns) := by
  constructor
  · rintro ⟨before, after, hturns, hp⟩
    rcases List.eq_nil_or_concat after with rfl | ⟨after, last, rfl⟩
    · obtain ⟨rfl, hlast⟩ := List.append_inj' hturns rfl
      exact .inr ⟨by simpa using hlast, hp⟩
    · rw [List.concat_eq_append, ← List.cons_append, ← List.append_assoc] at hturns
      exact .inl ⟨before, after, (List.append_inj' hturns rfl).1, hp⟩
  · rintro (h | ⟨rfl, hp⟩)
    · exact h.concat turn'
    · exact .last hp

/-- What a turn brings about and no turn of the run undoes holds from then on. -/
theorem TurnAt.lasts (h : TurnAt d r s turns turn p)
    (hp : ∀ turns, p ((initial s).run d r turns) → q (((initial s).run d r turns).step d r turn))
    (hq : ∀ turns turn', q ((initial s).run d r turns) →
      q (((initial s).run d r turns).step d r turn')) : q ((initial s).run d r turns) := by
  induction turns using List.reverseRecOn with
  | nil => exact absurd h not_turnAt_nil
  | append_singleton turns last ih =>
    rw [run_concat]
    rcases turnAt_concat.mp h with hbefore | ⟨rfl, hlast⟩
    · exact hq turns last (ih hbefore)
    · exact hp turns hlast

theorem TurnAt.stage_le {k : Nat} (h : TurnAt d r s turns turn p)
    (hp : ∀ turns, p ((initial s).run d r turns) →
      k ≤ (((initial s).run d r turns).step d r turn).phase.stage) :
    k ≤ ((initial s).run d r turns).phase.stage :=
  TurnAt.lasts (q := fun c => k ≤ c.phase.stage) h hp
    fun _ turn' hk => hk.trans (stage_le_step _ turn')

theorem TurnAt.mem_trace {e : Event} (h : TurnAt d r s turns turn p)
    (hp : ∀ turns, p ((initial s).run d r turns) →
      e ∈ (((initial s).run d r turns).step d r turn).trace) :
    e ∈ ((initial s).run d r turns).trace :=
  TurnAt.lasts (q := fun c => e ∈ c.trace) h hp
    fun _ turn' he => (trace_prefix_step _ turn').subset he

/-- Whether the turns in states with a property lead past a mark. -/
def Passes (d : Driver σ) (r : Request) (s : σ) (turn : Turn) (p : Config σ → Prop)
    (m : Config σ → Nat) (k : Nat) : Prop :=
  ∀ turns, p ((initial s).run d r turns) → m ((initial s).run d r turns) < k ∧
    k ≤ m (((initial s).run d r turns).step d r turn)

/-- Two turns that lead past the same mark are one turn, if no turn ever leads back. -/
theorem TurnAt.meet {m : Config σ → Nat} {k : Nat}
    (hm : ∀ turns turn, m ((initial s).run d r turns) ≤
      m (((initial s).run d r turns).step d r turn))
    (hp : TurnAt d r s turns turn p) (hpast : Passes d r s turn p m k)
    (hq : TurnAt d r s turns turn' q) (hqast : Passes d r s turn' q m k) : ∃ c, p c ∧ q c := by
  have hlasts {turn : Turn} {p : Config σ → Prop} {turns : List Turn}
      (h : TurnAt d r s turns turn p) (hpast : Passes d r s turn p m k) :
      k ≤ m ((initial s).run d r turns) :=
    TurnAt.lasts (q := fun c => k ≤ m c) h (fun turns hc => (hpast turns hc).2)
      fun turns turn hk => hk.trans (hm turns turn)
  induction turns using List.reverseRecOn with
  | nil => exact absurd hp not_turnAt_nil
  | append_singleton turns last ih =>
    rcases turnAt_concat.mp hp with hp | ⟨-, hp⟩ <;> rcases turnAt_concat.mp hq with hq | ⟨-, hq⟩
    · exact ih hp hq
    · exact absurd (hlasts hp hpast) (not_le.mpr (hqast turns hq).1)
    · exact absurd (hlasts hq hqast) (not_le.mpr (hpast turns hp).1)
    · exact ⟨_, hp, hq⟩

/-- The coordinator notes each of its events at most once, and not before it has come as far. -/
theorem count_le_of_stage {e : Event} {k : Nat} (he : e.stage? = some k) (turns : List Turn) :
    ((initial s).run d r turns).trace.count e ≤
      if k ≤ ((initial s).run d r turns).phase.stage then 1 else 0 := by
  induction turns using List.reverseRecOn with
  | nil => exact Nat.zero_le _
  | append_singleton turns turn ih =>
    rw [run_concat]
    generalize (initial s).run d r turns = c at ih
    cases turn with
    | worker =>
      obtain ⟨news, htrace, hnews⟩ := (works_workerStep d c).exists_news
      have hnone : news.count e = 0 :=
        List.count_eq_zero.mpr fun hmem => by simp [hnews e hmem] at he
      rw [step, htrace, List.count_append, hnone, (works_workerStep d c).phase_eq]
      exact ih
    | clock => exact ih
    | coordinator =>
      obtain ⟨hle, news, htrace, hnodup, hnews⟩ := (leads_coordinatorStep d r c).exists_news
      rw [step, htrace, List.count_append]
      by_cases hmem : e ∈ news
      · -- the event is new, so its stage was not reached before
        obtain ⟨k', hk', hlow, hhigh⟩ := hnews e hmem
        obtain rfl : k = k' := Option.some.inj (he.symm.trans hk')
        rw [if_neg (by omega)] at ih
        rw [if_pos hhigh, List.count_eq_one_of_mem hnodup hmem]
        omega
      · rw [List.count_eq_zero.mpr hmem]
        split_ifs at ih ⊢ <;> omega

theorem count_le_one {e : Event} {k : Nat} (he : e.stage? = some k) (turns : List Turn) :
    ((initial s).run d r turns).trace.count e ≤ 1 :=
  (count_le_of_stage he turns).trans (by split_ifs <;> decide)

/-! ### What brings an event about -/

/-- What does not hold at first and holds in the end came about at one of the turns. -/
theorem exists_turnAt (hfirst : ¬ q (initial s)) (hlast : q ((initial s).run d r turns)) :
    ∃ turn, TurnAt d r s turns turn fun c => ¬ q c ∧ q (c.step d r turn) := by
  induction turns using List.reverseRecOn with
  | nil => exact absurd hlast hfirst
  | append_singleton turns turn ih =>
    by_cases hbefore : q ((initial s).run d r turns)
    · obtain ⟨turn', hturn⟩ := ih hbefore
      exact ⟨turn', hturn.concat turn⟩
    · rw [run_concat] at hlast
      exact ⟨turn, .last ⟨hbefore, hlast⟩⟩

theorem TurnAt.mono {p' : Config σ → Prop} (h : TurnAt d r s turns turn p)
    (hp : ∀ turns, p ((initial s).run d r turns) → p' ((initial s).run d r turns)) :
    TurnAt d r s turns turn p' := by
  obtain ⟨before, after, hturns, hbefore⟩ := h
  exact ⟨before, after, hturns, hp before hbefore⟩

/-- What is in the trace came about at one of the turns. -/
theorem happened_iff {e : Event} (turns : List Turn) :
    e ∈ ((initial s).run d r turns).trace ↔
      ∃ turn, TurnAt d r s turns turn fun c => Happens e c (c.step d r turn) := by
  constructor
  · intro he
    obtain ⟨turn, hturn⟩ := exists_turnAt (q := fun c => e ∈ c.trace) List.not_mem_nil he
    refine ⟨turn, hturn.mono fun turns hnew => ?_⟩
    rw [Happens, List.count_eq_zero.mpr hnew.1]
    exact List.count_pos_iff.mpr hnew.2
  · rintro ⟨turn, hturn⟩
    exact hturn.mem_trace fun turns hnew => List.count_pos_iff.mp (Nat.zero_lt_of_lt hnew)

/-- The coordinator alone brings its events about. -/
theorem Happens.turn_eq {e : Event} {k : Nat} (he : e.stage? = some k)
    (h : Happens e c (c.step d r turn)) : turn = .coordinator := by
  cases turn with
  | coordinator => rfl
  | clock => exact absurd h (lt_irrefl _)
  | worker =>
    obtain ⟨news, htrace, hnews⟩ := (works_workerStep d c).exists_news
    have hnone : news.count e = 0 :=
      List.count_eq_zero.mpr fun hmem => by simp [hnews e hmem] at he
    rw [Happens, step, htrace, List.count_append, hnone] at h
    exact absurd h (lt_irrefl _)

theorem Happens.injects (h : Happens .inject c (c.step d r turn)) : Injects r c := by
  obtain rfl := h.turn_eq rfl
  have hl := leads_coordinatorStep d r c
  rw [step] at h
  generalize c.coordinatorStep d r = c' at hl h
  cases hl with
  | inject hphase hdue hfault | injectFails hphase hdue hfault =>
    exact ⟨_, hphase, hdue, Option.ne_none_iff_exists'.mpr ⟨_, hfault⟩⟩
  | _ => simp [Happens, enter, note, cancel, trace_afterFault] at h

theorem Happens.examines (h : Happens .examine c (c.step d r turn)) : Examines r c := by
  obtain rfl := h.turn_eq rfl
  have hl := leads_coordinatorStep d r c
  rw [step] at h
  generalize c.coordinatorStep d r = c' at hl h
  cases hl with
  | examineFails hphase hvirtual | examine hphase hvirtual => exact ⟨_, hphase, hvirtual⟩
  | _ => simp [Happens, enter, note, cancel, trace_afterFault] at h

/-! ### The worker's report -/

/-- The report of traffic is what the coordinator looks at. -/
theorem ready_iff (turns : List Turn) : ((initial s).run d r turns).ready = true ↔
    .ready ∈ ((initial s).run d r turns).trace := by
  induction turns using List.reverseRecOn with
  | nil => simp [run, initial]
  | append_singleton turns turn ih =>
    rw [run_concat]
    generalize (initial s).run d r turns = c at ih
    cases turn with
    | clock => exact ih
    | worker =>
      have h := works_workerStep d c
      rw [step]
      generalize c.workerStep d = c' at h
      cases h <;> simp [note, ih]
    | coordinator =>
      have h := leads_coordinatorStep d r c
      obtain ⟨-, news, htrace, -, hnews⟩ := h.exists_news
      have hno : .ready ∉ news := fun hmem => by simpa [Event.stage?] using hnews _ hmem
      have hready : (c.coordinatorStep d r).ready = c.ready := by
        generalize c.coordinatorStep d r = c' at h
        cases h with
        | proceed | inject | injectNothing => rw [afterFault]; split <;> rfl
        | _ => rfl
      rw [step, htrace, List.mem_append, hready, ih]
      simp [hno]

/-! ### What happens only once -/

theorem Finds.awaits {wait : WaitEnd} (h : c.Finds wait) :
    ∃ deadline, c.phase = .awaiting deadline := by
  cases wait with
  | seen => exact ⟨h.choose, h.choose_spec.1⟩
  | released => exact ⟨h.choose, h.choose_spec.choose_spec.1⟩
  | expired => exact ⟨h.choose, h.choose_spec.1⟩

theorem Finds.eq {wait wait' : WaitEnd} (h : c.Finds wait) (h' : c.Finds wait') : wait = wait' := by
  cases wait <;> cases wait' <;> simp only [Finds] at h h' <;> grind

/-- A coordinator that has something to do about its wait goes on. -/
theorem stage_step_awaiting {deadline : Nat} (hphase : c.phase = .awaiting deadline)
    (h : c.ready = true ∨ (∃ how, c.worker = .ended how) ∨ deadline ≤ c.now) :
    2 ≤ (c.step d r .coordinator).phase.stage := by
  rw [step, coordinatorStep]
  simp only [hphase]
  split_ifs with hready hended hlate
  · rw [afterReady]
    split
    · exact le_refl 2
    · exact le_trans (by decide) (stage_afterFault r c)
  · exact Nat.le_add_left 2 2
  · exact Nat.le_add_left 2 2
  · rcases h with h | ⟨how, h⟩ | h
    · exact absurd h hready
    · simp [ended?, h] at hended
    · exact absurd h hlate

theorem Finds.passes {wait : WaitEnd} (h : c.Finds wait) :
    c.phase.stage < 2 ∧ 2 ≤ (c.step d r .coordinator).phase.stage := by
  obtain ⟨deadline, hphase⟩ := h.awaits
  refine ⟨by simp [hphase, Phase.stage], ?_⟩
  cases wait with
  | seen =>
    obtain ⟨deadline, hphase, hready⟩ := h
    exact stage_step_awaiting hphase (.inl hready)
  | released =>
    obtain ⟨deadline, how, hphase, -, hhow⟩ := h
    exact stage_step_awaiting hphase (.inr (.inl ⟨how, hhow⟩))
  | expired =>
    obtain ⟨deadline, hphase, -, -, hlate⟩ := h
    exact stage_step_awaiting hphase (.inr (.inr hlate))

/-- The wait for traffic comes to its end only once. -/
theorem WaitEnded.eq {wait wait' : WaitEnd} (h : WaitEnded d r s turns wait)
    (h' : WaitEnded d r s turns wait') : wait = wait' := by
  obtain ⟨c, hc, hc'⟩ := TurnAt.meet (m := fun c => c.phase.stage)
    (fun turns turn => stage_le_step _ turn) h (fun turns hc => hc.passes) h'
    fun turns hc => hc.passes
  exact hc.eq hc'

/-- The worker is started from rest and does not come back from its end. -/
theorem worker_stage_le_step (turns : List Turn) (turn : Turn) :
    ((initial s).run d r turns).worker.stage ≤
      (((initial s).run d r turns).step d r turn).worker.stage := by
  have hsound := sound_run d r s turns
  generalize (initial s).run d r turns = c at hsound
  cases turn with
  | clock => exact le_rfl
  | worker =>
    have h := works_workerStep d c
    rw [step]
    generalize c.workerStep d = c' at h
    cases h with
    | rest | report | cancel => exact le_rfl
    | finish hrunning | fail hrunning | crash hrunning => simp [hrunning, WorkerStatus.stage]
  | coordinator =>
    rcases (leads_coordinatorStep d r c).worker_eq with h | ⟨hphase, -⟩
    · exact (congrArg WorkerStatus.stage h).ge
    · simp only [Sound, hphase] at hsound
      simp [hsound.1, WorkerStatus.stage]

theorem LastMove.passes (last : LastMove σ) : Passes d r s .worker
    (fun c => c.worker = .running ∧ d.act c.sight c.driver = last.move)
    (fun c => c.worker.stage) 2 := by
  rintro turns ⟨hrunning, hact⟩
  refine ⟨by simp [hrunning, WorkerStatus.stage], ?_⟩
  cases last <;> simp [step, workerStep, hrunning, hact, LastMove.move, WorkerStatus.stage]

/-- The worker ends only once. -/
theorem Ended.eq {last last' : LastMove σ} (h : Ended d r s turns last)
    (h' : Ended d r s turns last') : last = last' := by
  obtain ⟨c, ⟨-, hc⟩, -, hc'⟩ :=
    TurnAt.meet worker_stage_le_step h (LastMove.passes last) h' (LastMove.passes last')
  cases last <;> cases last' <;> cases hc.symm.trans hc' <;> rfl

/-- The worker's end is that of its last move, and what it left stays as it is until the end of the
run. -/
theorem ended_of_worker {how : WorkerEnd} (turns : List Turn)
    (hended : ((initial s).run d r turns).worker = .ended how)
    (hstage : ((initial s).run d r turns).phase.stage < 6) :
    Ended d r s turns (how.lastMove ((initial s).run d r turns).driver) := by
  induction turns using List.reverseRecOn with
  | nil => cases hended
  | append_singleton turns turn ih =>
    rw [run_concat] at hended hstage ⊢
    have hlow := (stage_le_step (d := d) (r := r) ((initial s).run d r turns) turn).trans_lt hstage
    cases turn with
    | clock => exact (ih hended hlow).concat _
    | worker =>
      have hw := works_workerStep d ((initial s).run d r turns)
      rw [step] at hended ⊢
      generalize ((initial s).run d r turns).workerStep d = c' at hw hended hstage
      cases hw with
      | rest => exact (ih hended hlow).concat _
      | report hrunning | cancel hrunning => cases hrunning.symm.trans hended
      | finish hrunning hact | fail hrunning hact | crash hrunning hact =>
        cases hended
        exact .last ⟨hrunning, hact⟩
    | coordinator =>
      have hl := leads_coordinatorStep d r ((initial s).run d r turns)
      rw [step] at hended hstage ⊢
      generalize ((initial s).run d r turns).coordinatorStep d r = c' at hl hended hstage
      cases hl with
      | start => cases hended
      | refuse | skip | examineFails | examine => exact absurd hstage (lt_irrefl 6)
      | proceed | inject | injectNothing =>
        rcases afterFault_eq r _ with ⟨window, -, h⟩ | ⟨-, h⟩ <;> rw [h] at hended ⊢ <;>
          exact (ih hended hlow).concat _
      | _ => exact (ih hended hlow).concat _

end Config

end Switchover
