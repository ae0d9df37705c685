import Mathlib
import Switchover.CommandLine.Command
import Switchover.Proofs.Json.Decoding
import Switchover.Proofs.Text.Stretches

/-!
Reading options one after the other. An option with its value behind an equals sign is one argument,
and reading goes on behind it. What every option keeps of the command that is being put together, a
whole command line keeps.
-/
namespace Switchover.CommandLine

open Json (ok_bind bind_eq_ok)

/-! ### One option -/

/-- An option with its value behind an equals sign. -/
def attached (name text : String) : String :=
  "--" ++ name ++ "=" ++ text

theorem shape_attached {name : String} (hname : '=' ∉ name.toList) (text : String) :
    Shape.of (attached name text) = .long name (some text) := by
  have hne : ∀ c ∈ name.toList, decide (c ≠ '=') = true := fun c hc =>
    decide_eq_true fun heq => hname (heq ▸ hc)
  have hend : ∀ c ∈ ('=' :: text.toList).head?, decide (c ≠ '=') = false := by simp
  have htake := Text.takeWhile_stretch hne hend
  have hdrop := Text.dropWhile_stretch hne hend
  have hlist : (attached name text).toList = '-' :: '-' :: (name.toList ++ '=' :: text.toList) := by
    simp [attached]
  obtain ⟨c, cs, hcs⟩ := List.exists_cons_of_ne_nil
    (List.append_ne_nil_of_right_ne_nil name.toList (List.cons_ne_nil '=' text.toList))
  rw [hcs] at htake hdrop hlist
  rw [Shape.of, hlist]
  simp only [htake, hdrop, String.ofList_toList]

section Options
variable {α : Type} {letters : List (Char × Halt)} {words : List (String × Halt)}
  {parameters : List (Parameter α)}

/-- An option that may still be given takes its value, and reading goes on behind it. -/
theorem readOptions_attached {p : Progress α} {name text : String} {repeatable : Bool}
    {set : String → α → Option α} (hname : '=' ∉ name.toList)
    (hfind : parameters.find? (·.name == name) = some ⟨name, repeatable, .value set⟩)
    (hgiven : (!repeatable && p.given.contains name) = false) {a : α}
    (hset : set text p.command = some a) (rest : List String) :
    readOptions letters words parameters p (attached name text :: rest) =
      readOptions letters words parameters ⟨a, name :: p.given⟩ rest := by
  have hmeet : p.meet ⟨name, repeatable, .value set⟩ = .ok ⟨p.command, name :: p.given⟩ :=
    if_neg (by rw [hgiven]; exact Bool.false_ne_true)
  have hvalue : p.setValue ⟨name, repeatable, .value set⟩ set text =
      .ok ⟨a, name :: p.given⟩ := by
    rw [Progress.setValue, hmeet, ok_bind, hset]
    rfl
  rw [readOptions, shape_attached hname]
  simp only [hfind, hvalue]

/-- An option that may be given several times takes one value after the other. -/
theorem readOptions_repeated {β : Type} {name : String} {set : String → α → Option α}
    {put : α → β → α} (hname : '=' ∉ name.toList)
    (hfind : parameters.find? (·.name == name) = some ⟨name, true, .value set⟩)
    {texts : List String} {values : List β}
    (h : List.Forall₂ (fun text b => ∀ a, set text a = some (put a b)) texts values)
    (p : Progress α) : ∃ given,
      readOptions letters words parameters p (texts.map (attached name)) =
        .ok (⟨values.foldl put p.command, given⟩, []) := by
  induction h generalizing p with
  | nil => exact ⟨p.given, rfl⟩
  | @cons text b texts values htext _ ih =>
    obtain ⟨given, hread⟩ := ih ⟨put p.command b, name :: p.given⟩
    refine ⟨given, ?_⟩
    rw [List.map_cons, readOptions_attached hname hfind rfl (htext _), hread]
    rfl

/-! ### What options keep -/

/-- Whether an option keeps a property of the command that it changes. -/
def Parameter.Keeps (P : α → Prop) (parameter : Parameter α) : Prop :=
  match parameter.effect with
  | .flag set => ∀ a, P a → P (set a)
  | .value set => ∀ text a b, P a → set text a = some b → P b

variable {P : α → Prop}

theorem Parameter.keeps_value {β : Type} {name : String} {repeatable : Bool}
    {read : String → Option β} {set : α → β → α}
    (h : ∀ a b text, read text = some b → P a → P (set a b)) :
    Keeps P ⟨name, repeatable, .value fun text a => (read text).map (set a)⟩ := by
  intro text a b ha hset
  obtain ⟨v, hv, rfl⟩ := Option.map_eq_some_iff.mp hset
  exact h a v text hv ha

theorem Parameter.keeps_true (parameter : Parameter α) : parameter.Keeps fun _ => True := by
  rw [Keeps]
  split
  · exact fun _ _ => trivial
  · exact fun _ _ _ _ _ => trivial

/-- An option for a part keeps of the whole what follows from what it keeps of the part. -/
theorem Parameter.Keeps.lift {β : Type} {Q : β → Prop} {get : β → α} {set : β → α → β}
    {parameter : Parameter α} (hkeeps : parameter.Keeps P) (hget : ∀ b, Q b → P (get b))
    (hset : ∀ b a, Q b → P a → Q (set b a)) : Keeps Q (parameter.lift get set) := by
  obtain ⟨name, repeatable, effect⟩ := parameter
  cases effect with
  | flag f => exact fun b hb => hset _ _ hb (hkeeps _ (hget b hb))
  | value f =>
    intro text b b' hb hb'
    obtain ⟨a, ha, rfl⟩ := Option.map_eq_some_iff.mp hb'
    exact hset _ _ hb (hkeeps _ _ _ (hget b hb) ha)

theorem Progress.meet_command {p q : Progress α} {parameter : Parameter α}
    (h : p.meet parameter = .ok q) : q.command = p.command := by
  rw [meet] at h
  split_ifs at h
  rw [← Except.ok.inj h]

theorem Progress.keeps_setFlag {p q : Progress α} {parameter : Parameter α}
    (hkeeps : parameter.Keeps P) {set : α → α} (heffect : parameter.effect = .flag set)
    (hp : P p.command) (h : p.setFlag parameter set = .ok q) : P q.command := by
  rw [Parameter.Keeps, heffect] at hkeeps
  obtain ⟨met, hmet, h⟩ := bind_eq_ok.mp h
  rw [← Except.ok.inj h]
  exact hkeeps _ (meet_command hmet ▸ hp)

theorem Progress.keeps_setValue {p q : Progress α} {parameter : Parameter α}
    (hkeeps : parameter.Keeps P) {set : String → α → Option α}
    (heffect : parameter.effect = .value set) {text : String} (hp : P p.command)
    (h : p.setValue parameter set text = .ok q) : P q.command := by
  rw [Parameter.Keeps, heffect] at hkeeps
  obtain ⟨met, hmet, h⟩ := bind_eq_ok.mp h
  cases hb : set text met.command with
  | none => simp [hb] at h
  | some b =>
    simp only [hb] at h
    rw [← Except.ok.inj h]
    exact hkeeps _ _ _ (meet_command hmet ▸ hp) hb

/-- What every option keeps holds of what has been read, however far reading comes. -/
theorem readOptions_keeps (hkeeps : ∀ parameter ∈ parameters, parameter.Keeps P)
    {p q : Progress α} {args rest : List String} (hp : P p.command)
    (h : readOptions letters words parameters p args = .ok (q, rest)) : P q.command := by
  have hstop : ∀ {p : Progress α} {more : List String}, P p.command →
      (.ok (p, more) : Except Halt (Progress α × List String)) = .ok (q, rest) → P q.command := by
    rintro p more hp ⟨⟩
    exact hp
  -- reading stops at the end or a plain argument, or goes on behind an option; all else fails
  fun_induction readOptions letters words parameters p args with
  | case1 | case2 | case3 => exact hstop hp h
  | case9 _ _ _ _ hfind _ _ heffect _ hset _ ih =>
    have hparameter := hkeeps _ (List.mem_of_find?_eq_some hfind)
    exact ih (Progress.keeps_setFlag hparameter heffect hp hset) h
  | case12 _ _ _ _ hfind _ _ _ heffect _ hset _ ih =>
    have hparameter := hkeeps _ (List.mem_of_find?_eq_some hfind)
    exact ih (Progress.keeps_setValue hparameter heffect hp hset) h
  | case15 _ _ _ _ hfind _ _ _ heffect _ _ hset _ ih =>
    have hparameter := hkeeps _ (List.mem_of_find?_eq_some hfind)
    exact ih (Progress.keeps_setValue hparameter heffect hp hset) h
  | _ => cases h

theorem readAllOptions_keeps (hkeeps : ∀ parameter ∈ parameters, parameter.Keeps P)
    {start a : α} {args : List String} (hstart : P start)
    (h : readAllOptions parameters start args = .ok a) : P a := by
  obtain ⟨⟨p, rest⟩, hread, h⟩ := bind_eq_ok.mp h
  have hp := readOptions_keeps hkeeps (p := ⟨start, []⟩) hstart hread
  dsimp only at h
  split_ifs at h
  rw [← Except.ok.inj h]
  exact hp

end Options

/-! ### Whole commands -/

/-- The options of a command, and the one for the settings file in front of them. -/
def withSettings {α : Type} (parameters : List (Parameter α)) :
    List (Parameter (Option String × α)) :=
  settingsParameter.lift (·.1) (fun b a => (a, b.2)) ::
    parameters.map (·.lift (·.2) fun b a => (b.1, a))

/-- What the options read and the command takes is the command that is read. -/
theorem readCommand_eq_ok {α : Type} {parameters : List (Parameter α)} {start a : α}
    {finish : α → Option Command} {path path' : Option String} {args : List String}
    {command : Command}
    (hread : readAllOptions (withSettings parameters) (path, start) args = .ok (path', a))
    (hfinish : finish a = some command) :
    readCommand parameters start finish path args = .ok ⟨path', command⟩ := by
  rw [withSettings] at hread
  rw [readCommand]
  dsimp only
  rw [hread, ok_bind]
  dsimp only
  rw [hfinish]
  rfl

/-- What the options of a command keep is kept beside the path of the settings file. -/
theorem readCommand_keeps {α : Type} {parameters : List (Parameter α)} {P : α → Prop}
    (hkeeps : ∀ parameter ∈ parameters, parameter.Keeps P) {start : α} (hstart : P start)
    {finish : α → Option Command} {path : Option String} {args : List String} {i : Invocation}
    (h : readCommand parameters start finish path args = .ok i) :
    ∃ a, P a ∧ finish a = some i.command := by
  obtain ⟨⟨path, a⟩, hread, h⟩ := bind_eq_ok.mp h
  have hkeeps : ∀ parameter ∈ withSettings parameters, parameter.Keeps fun b => P b.2 :=
    List.forall_mem_cons.mpr ⟨
      settingsParameter.keeps_true.lift (fun _ _ => trivial) fun _ _ hb _ => hb,
      List.forall_mem_map.mpr fun parameter hparameter =>
        (hkeeps parameter hparameter).lift (fun _ hb => hb) fun _ _ _ ha => ha⟩
  refine ⟨a, readAllOptions_keeps hkeeps hstart hread, ?_⟩
  dsimp only at h
  cases hfinish : finish a with
  | none => simp [hfinish] at h
  | some command =>
    simp only [hfinish] at h
    rw [← Except.ok.inj h]

end Switchover.CommandLine
