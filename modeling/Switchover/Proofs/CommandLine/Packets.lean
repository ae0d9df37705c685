import Mathlib
import Switchover.CommandLine.Run
import Switchover.Proofs.CommandLine.Arguments
import Switchover.Proofs.Text.Numeral
import Switchover.Proofs.Traffic.Copies

/-!
Packets named on a command line. An argument for copies is an id and a number of at most a thousand
with a colon between them, and a plan has the entries of all its arguments. Since the entries of one
id add up and only the single argument is bounded, a plan keeps within the bound exactly if the
arguments of no id ask for more together.
-/
namespace Switchover.CommandLine

open Text (IsField NumeralFault trim readUInt32_trim_eq_ok readUInt64_trim_eq_ok)
open Json (bind_eq_ok)

/-! ### Arguments -/

theorem eq_append_of_splitAtFirst {separator s before behind : List Char}
    (h : splitAtFirst separator s = some (before, behind)) : s = before ++ separator ++ behind := by
  induction s generalizing before with
  | nil => cases h
  | cons c s ih =>
    rw [splitAtFirst] at h
    split_ifs at h with hfirst
    · obtain ⟨rfl, rfl⟩ := Prod.mk.inj (Option.some.inj h)
      exact (List.prefix_iff_eq_append.mp (List.isPrefixOf_iff_prefix.mp hfirst)).symm
    · obtain ⟨cut, hcut, hcons⟩ := Option.map_eq_some_iff.mp h
      obtain ⟨rfl, rfl⟩ := Prod.mk.inj hcons
      rw [List.cons_append, List.cons_append, ← ih hcut]

/-- A text is split behind a part in which no separator can begin. -/
theorem splitAtFirst_append {c : Char} {separator before behind : List Char} (h : c ∉ before) :
    splitAtFirst (c :: separator) (before ++ c :: separator ++ behind) = some (before, behind) := by
  induction before with
  | nil => simp [splitAtFirst]
  | cons d before ih =>
    obtain ⟨hne, hbefore⟩ := List.ne_and_not_mem_of_not_mem_cons h
    have hcut := ih hbefore
    simp only [List.append_assoc, List.cons_append] at hcut ⊢
    simp [splitAtFirst, hne, hcut]

theorem number_eq_ok {α : Type} {read : List Char → Except NumeralFault α} {what : String}
    {s : List Char} {a : α} : number read what s = .ok a ↔ read (trim s) = .ok a := by
  rw [number]
  cases read (trim s) <;> simp [Except.mapError]

/-- Whether a text is two numbers, with blanks around them and a separator between them. -/
def SpellsPair (separator s : List Char) (m n : Nat) : Prop :=
  ∃ front back, s = front ++ separator ++ back ∧ IsField front m ∧ IsField back n

/-- Two numbers are told apart at the first separator, as it begins with what is in no number. -/
theorem spellsPair_iff {c : Char} (hblank : Text.isBlank c = false) (hdigit : c.isDigit = false)
    (hplus : c ≠ '+') {separator s : List Char} {m n : Nat} :
    SpellsPair (c :: separator) s m n ↔ ∃ front back,
      splitAtFirst (c :: separator) s = some (front, back) ∧ IsField front m ∧ IsField back n := by
  constructor
  · rintro ⟨front, back, rfl, hfront, hback⟩
    have hc : c ∉ front := by
      intro hc
      rcases hfront.of_mem hc with h | h | h
      · exact absurd h (by simp [hblank])
      · exact absurd h (by simp [hdigit])
      · exact hplus h
    exact ⟨front, back, splitAtFirst_append hc, hfront, hback⟩
  · rintro ⟨front, back, hsplit, hfront, hback⟩
    exact ⟨front, back, eq_append_of_splitAtFirst hsplit, hfront, hback⟩

/-- Two numbers are read, and judged together, exactly from the texts that spell them. -/
theorem readPair_eq_ok {α β γ : Type} {readFirst : List Char → Except NumeralFault α}
    {readSecond : List Char → Except NumeralFault β} {ofFirst : α → Nat} {ofSecond : β → Nat}
    (hfirst : ∀ s a, readFirst (trim s) = .ok a ↔ IsField s (ofFirst a))
    (hsecond : ∀ s b, readSecond (trim s) = .ok b ↔ IsField s (ofSecond b))
    {c : Char} (hblank : Text.isBlank c = false) (hdigit : c.isDigit = false) (hplus : c ≠ '+')
    {separator s : List Char} {fault : PacketsFault} {what what' : String}
    {judge : α → β → Except PacketsFault γ} {r : γ} :
    (match splitAtFirst (c :: separator) s with
      | none => Except.error fault
      | some (front, back) => do
        let a ← number readFirst what front
        let b ← number readSecond what' back
        judge a b) = .ok r ↔
      ∃ a b, SpellsPair (c :: separator) s (ofFirst a) (ofSecond b) ∧ judge a b = .ok r := by
  simp only [spellsPair_iff hblank hdigit hplus]
  constructor
  · intro h
    split at h
    · cases h
    · next front back hsplit =>
      obtain ⟨a, ha, h⟩ := bind_eq_ok.mp h
      obtain ⟨b, hb, hjudge⟩ := bind_eq_ok.mp h
      exact ⟨a, b, ⟨front, back, hsplit, (hfirst _ _).mp (number_eq_ok.mp ha),
        (hsecond _ _).mp (number_eq_ok.mp hb)⟩, hjudge⟩
  · rintro ⟨a, b, ⟨front, back, hsplit, ha, hb⟩, hjudge⟩
    rw [hsplit]
    exact bind_eq_ok.mpr ⟨a, number_eq_ok.mpr ((hfirst _ _).mpr ha),
      bind_eq_ok.mpr ⟨b, number_eq_ok.mpr ((hsecond _ _).mpr hb), hjudge⟩⟩

/-- The texts that are read as an id with copies. -/
theorem extraCopies_eq_ok {s : String} {id : UInt64} {n : UInt32} :
    extraCopies s = .ok (id, n) ↔
      n ≤ mostCopies ∧ SpellsPair [':'] s.toList id.toNat n.toNat := by
  rw [extraCopies]
  refine (readPair_eq_ok (fun _ _ => readUInt64_trim_eq_ok) (fun _ _ => readUInt32_trim_eq_ok)
    (by decide) (by decide) (by decide)).trans ?_
  constructor
  · rintro ⟨id', n', hspells, hjudge⟩
    split_ifs at hjudge with hmost
    obtain ⟨rfl, rfl⟩ := Prod.mk.inj (Except.ok.inj hjudge)
    exact ⟨UInt32.not_lt.mp hmost, hspells⟩
  · rintro ⟨hmost, hspells⟩
    exact ⟨id, n, hspells, if_neg (UInt32.not_lt.mpr hmost)⟩

/-! ### Whole command lines -/

namespace SimulateCommand

/-- Whether no entry asks for more copies than one argument may. -/
def Bounded (c : SimulateCommand) : Prop :=
  ∀ entry ∈ c.copies, entry.2 ≤ mostCopies

/-- Only the arguments for copies add entries, and each of them is bounded. -/
theorem keeps_parameters : ∀ parameter ∈ parameters, parameter.Keeps Bounded := by
  have hflag {name : String} {set : SimulateCommand → SimulateCommand}
      (hset : ∀ c, (set c).copies = c.copies) : (Parameter.flag name set).Keeps Bounded := by
    intro c hc
    rwa [Bounded, hset]
  have hvalue {β : Type} {name : String} {repeatable : Bool} {read : String → Option β}
      {set : SimulateCommand → β → SimulateCommand}
      (hset : ∀ c b, (set c b).copies = c.copies) : Parameter.Keeps Bounded
        ⟨name, repeatable, .value fun text c => (read text).map (set c)⟩ := by
    refine Parameter.keeps_value fun c b _ _ hc => ?_
    rwa [Bounded, hset]
  have hcopies {name : String} : (Parameter.values name (fun s => (extraCopies s).toOption)
      fun (c : SimulateCommand) e => { c with copies := c.copies ++ [e] }).Keeps Bounded := by
    refine Parameter.keeps_value fun c e text he hc => ?_
    have hread := extraCopies_eq_ok.mp (Json.eq_ok_of_toOption he)
    exact List.forall_mem_append.mpr ⟨hc, List.forall_mem_singleton.mpr hread.1⟩
  simp only [parameters, List.forall_mem_cons]
  exact ⟨hvalue fun _ _ => rfl, hvalue fun _ _ => rfl, hvalue fun _ _ => rfl,
    hvalue fun _ _ => rfl, hcopies, hvalue fun _ _ => rfl, hvalue fun _ _ => rfl,
    hvalue fun _ _ => rfl, hflag fun _ => rfl, hvalue fun _ _ => rfl, hflag fun _ => rfl,
    hvalue fun _ _ => rfl, hvalue fun _ _ => rfl, hflag fun _ => rfl, nofun⟩

theorem bounded_start : start.Bounded := by simp [Bounded, start]

/-- Every entry of a simulation is bounded, since each argument is. -/
theorem bounded_of_read {args : List String} {path : Option String} {c : SimulateCommand}
    (h : read args = .ok ⟨path, .simulate c⟩) : c.Bounded := by
  obtain ⟨⟨settings, rest⟩, -, h⟩ := bind_eq_ok.mp h
  dsimp only at h
  have hother {α : Type} {parameters : List (Parameter α)} {start : α}
      {finish : α → Option Command} {args : List String}
      (h : readCommand parameters start finish settings.command args =
        .ok ⟨path, .simulate c⟩) : ∃ a, finish a = some (.simulate c) := by
    obtain ⟨a, -, hfinish⟩ :=
      readCommand_keeps (fun parameter _ => parameter.keeps_true) trivial h
    exact ⟨a, hfinish⟩
  split at h
  · obtain ⟨a, ha⟩ := hother h
    simp [VerifyCommand.finish] at ha
  · obtain ⟨a, hcopies, ha⟩ := readCommand_keeps keeps_parameters bounded_start h
    obtain rfl := Command.simulate.inj (Option.some.inj ha)
    split_ifs
    · exact hcopies
    · exact hcopies
  · obtain ⟨a, ha⟩ := hother h
    simp [SaveDraft.finish] at ha
  · obtain ⟨a, ha⟩ := hother h
    cases ha
  · cases h
  · cases h

/-- The command line that gives one option once for each text, where `whole` is the command with the
values read so far. -/
theorem read_repeated {β ε : Type} {name : String} {readOne : String → Except ε β}
    (put : SimulateCommand → β → SimulateCommand) (whole : List β → SimulateCommand)
    (hname : '=' ∉ name.toList)
    (hfind : (withSettings parameters).find? (·.name == name) =
      some ((Parameter.values name (fun s => (readOne s).toOption) put).lift (·.2)
        fun b a => (b.1, a)))
    (hstart : whole [] = start) (hput : ∀ bs b, put (whole bs) b = whole (bs ++ [b]))
    (hservers : ∀ bs, (whole bs).servers = []) {texts : List String} {values : List β}
    (h : texts.mapM readOne = .ok values) :
    read ("simulate" :: texts.map (attached name)) = .ok
      ⟨none, .simulate { whole values with servers := defaultServers }⟩ := by
  have hsimulate : Shape.of "simulate" = .plain := by decide
  have hvalues : List.Forall₂ (fun text b => ∀ a : Option String × SimulateCommand,
      (((readOne text).toOption.map (put a.2)).map fun c => (a.1, c)) =
        some (a.1, put a.2 b)) texts values :=
    (Json.mapM_eq_ok.mp h).imp fun text b hb a => by rw [hb]; rfl
  have hwhole : values.foldl (fun a b => (a.1, put a.2 b)) (none, start) =
      ((none : Option String), whole values) := by
    clear h hvalues
    induction values using List.reverseRecOn with
    | nil => exact congrArg (none, ·) hstart.symm
    | append_singleton bs b ih =>
      rw [List.foldl_append, ih]
      exact congrArg (none, ·) (hput bs b)
  have hread : readAllOptions (withSettings parameters) (none, start)
      (texts.map (attached name)) = .ok (none, whole values) := by
    obtain ⟨given, hoptions⟩ := readOptions_repeated hname hfind hvalues ⟨(none, start), []⟩
    rw [readAllOptions, hoptions, hwhole]
    rfl
  have hfinish : finish (whole values) =
      some (.simulate { whole values with servers := defaultServers }) := by
    rw [finish, hservers]
    rfl
  rw [read, readOptions, hsimulate]
  exact readCommand_eq_ok hread hfinish

/-- The command line that gives copies, one option for each text. -/
theorem read_duplicates {texts : List String} {entries : List (UInt64 × UInt32)}
    (h : texts.mapM extraCopies = .ok entries) :
    read ("simulate" :: texts.map (attached "duplicate")) = .ok
      ⟨none, .simulate { start with copies := entries, servers := defaultServers }⟩ :=
  read_repeated (fun c e => { c with copies := c.copies ++ [e] })
    (fun entries => { start with copies := entries }) (by decide) rfl rfl (fun _ _ => rfl)
    (fun _ => rfl) h

/-- The copies of an id keep within the bound exactly if its entries do together, as they do if
there is one at most. -/
theorem Bounded.extraCopies_le_iff {c : SimulateCommand} (h : c.Bounded) (id : UInt64) :
    (c.plan.extraCopies id ≤ mostCopies ↔ c.plan.copiesAsked id ≤ mostCopies.toNat) ∧
      (c.copies.countP (·.1 == id) ≤ 1 → c.plan.extraCopies id ≤ mostCopies) := by
  have hle : c.plan.extraCopies id ≤ mostCopies ↔ c.plan.copiesAsked id ≤ mostCopies.toNat :=
    Plan.extraCopies_le_iff (by decide)
  refine ⟨hle, fun hone => hle.mpr ?_⟩
  calc c.plan.copiesAsked id
      ≤ c.copies.countP (·.1 == id) * mostCopies.toNat := Plan.copiesAsked_le (p := c.plan) h id
    _ ≤ 1 * mostCopies.toNat := Nat.mul_le_mul_right _ hone
    _ = mostCopies.toNat := Nat.one_mul _

/-- Each argument is bounded, the plan is not. Any texts that are accepted as arguments are the
entries of a simulation, and each entry asks for at most as many copies as one argument may. But the
copies of an id keep within that bound exactly if its entries ask for no more together. -/
theorem copies_capped_iff {texts : List String} {entries : List (UInt64 × UInt32)}
    (h : texts.mapM extraCopies = .ok entries) :
    ∃ c, read ("simulate" :: texts.map (attached "duplicate")) = .ok ⟨none, .simulate c⟩ ∧
      c.plan.copies = entries ∧ c.Bounded ∧ ∀ id,
        (c.plan.extraCopies id ≤ mostCopies ↔ c.plan.copiesAsked id ≤ mostCopies.toNat) ∧
        (entries.countP (·.1 == id) ≤ 1 → c.plan.extraCopies id ≤ mostCopies) := by
  have hread := read_duplicates h
  have hbounded := bounded_of_read hread
  exact ⟨_, hread, rfl, hbounded, hbounded.extraCopies_le_iff⟩

/-- Two arguments for one id, each within the bound, and two arguments for two ids. -/
theorem copies_capped_iff_twice :
    let twice : List String := ["0:1000", " 0 : +1000"]
    let apart : List String := ["0:1000", "1:1000"]
    ∃ c d, read ("simulate" :: twice.map (attached "duplicate")) = .ok ⟨none, .simulate c⟩ ∧
      c.Bounded ∧ ¬ c.plan.extraCopies 0 ≤ mostCopies ∧
      read ("simulate" :: apart.map (attached "duplicate")) = .ok ⟨none, .simulate d⟩ ∧
      d.Bounded ∧ d.plan.extraCopies 0 ≤ mostCopies := by
  intro twice apart
  have htwice : twice.mapM extraCopies = .ok [(0, 1000), (0, 1000)] :=
    Json.eq_ok_of_toOption (by decide +kernel)
  have hapart : apart.mapM extraCopies = .ok [(0, 1000), (1, 1000)] :=
    Json.eq_ok_of_toOption (by decide +kernel)
  obtain ⟨c, hc, hcopies, hcbounded, hcle⟩ := copies_capped_iff htwice
  obtain ⟨d, hd, -, hdbounded, hdle⟩ := copies_capped_iff hapart
  refine ⟨c, d, hc, hcbounded, fun h => ?_, hd, hdbounded, (hdle 0).2 (by decide)⟩
  have hasked := (hcle 0).1.mp h
  rw [Plan.copiesAsked, hcopies] at hasked
  exact absurd hasked (by decide)

end SimulateCommand

end Switchover.CommandLine
