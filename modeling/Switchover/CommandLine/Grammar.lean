/-!
Reading the arguments of a program. An option is spelled `--name value` or `--name=value`, a flag
`--name`. Arguments are read from the left, and the first one that is refused, or that asks for
help, decides.
-/
namespace Switchover.CommandLine

/-- Why the arguments amount to no command. -/
inductive Halt where
  | help
  | version
  | refused
  deriving DecidableEq, Repr

/-- What an option does to the command `α` that is being put together. -/
inductive Effect (α : Type) where
  | flag (set : α → α)
  /-- An option with a value, which may be refused. -/
  | value (set : String → α → Option α)

/-- An option of a command. -/
structure Parameter (α : Type) where
  name : String
  /-- It may be given several times. -/
  repeatable : Bool
  effect : Effect α

namespace Parameter

variable {α β : Type}

/-- A flag. -/
def flag (name : String) (set : α → α) : Parameter α :=
  ⟨name, false, .flag set⟩

/-- An option whose value is read by `read`. -/
def value (name : String) (read : String → Option β) (set : α → β → α) : Parameter α :=
  ⟨name, false, .value fun text a => (read text).map (set a)⟩

/-- An option that may be given several times. -/
def values (name : String) (read : String → Option β) (set : α → β → α) : Parameter α :=
  ⟨name, true, .value fun text a => (read text).map (set a)⟩

/-- The option for a part of a larger command. -/
def lift (get : β → α) (set : β → α → β) (p : Parameter α) : Parameter β where
  name := p.name
  repeatable := p.repeatable
  effect := match p.effect with
    | .flag f => .flag fun b => set b (f (get b))
    | .value f => .value fun text b => (f text (get b)).map (set b)

end Parameter

/-- What an argument looks like. -/
inductive Shape where
  /-- Two dashes alone. -/
  | stop
  /-- An option or a flag, and the text behind its equals sign. -/
  | long (name : String) (attached : Option String)
  /-- A dash and single letters. -/
  | letters (first : Char)
  | plain
  deriving DecidableEq, Repr

/-- The look of an argument. A dash alone is plain. -/
def Shape.of (arg : String) : Shape :=
  match arg.toList with
  | ['-', '-'] => .stop
  | '-' :: '-' :: s =>
    .long (String.ofList (s.takeWhile (· ≠ '=')))
      (match s.dropWhile (· ≠ '=') with
        | _ :: behind => some (String.ofList behind)
        | [] => none)
  | '-' :: c :: _ => .letters c
  | _ => .plain

/-- How far the arguments have been read. -/
structure Progress (α : Type) where
  command : α
  /-- The names of the options met so far. -/
  given : List String

namespace Progress

variable {α : Type}

/-- Notes an option that is met. -/
def meet (p : Progress α) (parameter : Parameter α) : Except Halt (Progress α) :=
  if !parameter.repeatable && p.given.contains parameter.name then .error .refused
  else .ok { p with given := parameter.name :: p.given }

/-- Sets a flag. -/
def setFlag (p : Progress α) (parameter : Parameter α) (set : α → α) :
    Except Halt (Progress α) := do
  let p ← p.meet parameter
  return { p with command := set p.command }

/-- Gives an option its value. -/
def setValue (p : Progress α) (parameter : Parameter α) (set : String → α → Option α)
    (text : String) : Except Halt (Progress α) := do
  let p ← p.meet parameter
  match set text p.command with
  | none => .error .refused
  | some command => return { p with command }

end Progress

/-- Reads arguments up to the first plain one, and answers what it has read and the arguments from
there on. Two dashes may only stand at the very end. -/
def readOptions {α : Type} (letters : List (Char × Halt)) (words : List (String × Halt))
    (parameters : List (Parameter α)) (p : Progress α) :
    List String → Except Halt (Progress α × List String)
  | [] => .ok (p, [])
  | arg :: rest =>
    match Shape.of arg with
    | .plain => .ok (p, arg :: rest)
    | .stop => if rest.isEmpty then .ok (p, []) else .error .refused
    | .letters c => .error ((letters.lookup c).getD .refused)
    | .long name attached =>
      match parameters.find? (·.name == name) with
      | none =>
        match attached with
        | none => .error ((words.lookup name).getD .refused)
        | some _ => .error .refused
      | some parameter =>
        match parameter.effect, attached, rest with
        | .flag set, none, rest =>
          match p.setFlag parameter set with
          | .error halt => .error halt
          | .ok p => readOptions letters words parameters p rest
        | .flag _, some _, _ => .error .refused
        | .value set, some text, rest =>
          match p.setValue parameter set text with
          | .error halt => .error halt
          | .ok p => readOptions letters words parameters p rest
        | .value _, none, [] => .error .refused
        | .value set, none, text :: rest =>
          match Shape.of text with
          | .plain =>
            match p.setValue parameter set text with
            | .error halt => .error halt
            | .ok p => readOptions letters words parameters p rest
          | _ => .error .refused

/-- Reads arguments that are all options. -/
def readAllOptions {α : Type} (parameters : List (Parameter α)) (start : α) (args : List String) :
    Except Halt α := do
  let (p, rest) ← readOptions [('h', .help)] [("help", .help)] parameters ⟨start, []⟩ args
  if rest.isEmpty then return p.command else .error .refused

end Switchover.CommandLine
