import Switchover.Json.Number

/-!
Outlines of JSON texts. An outline records a text as far as it is well formed and marks where that
ends, so that a reader which walks it in the order of the text meets the problems in that order: a
number of the wrong kind counts before a bracket missing behind it, and the other way round.
-/
namespace Switchover.Json

/-- What a text holds, up to the first place where it stops being JSON. -/
inductive Outline where
  | null
  | bool (b : Bool)
  /-- A number; without a value if it is too large. -/
  | number (value : Option Number)
  /-- A string; without a value if half of a surrogate pair is missing. -/
  | text (value : Option String)
  /-- The items up to the closing bracket, or up to where the text breaks. -/
  | list (items : List Outline) (closed : Bool)
  /-- The members up to the closing bracket, or up to where the text breaks. A member that breaks
  behind its key has a broken value. -/
  | table (members : List (Outline × Outline)) (closed : Bool)
  | broken
  deriving Inhabited

/-- Blanks between the tokens of a JSON text. -/
def isSpace (c : Char) : Bool :=
  c == ' ' || c == '\n' || c == '\t' || c == '\r'

/-- The text from its first token on. -/
def skipSpace (s : List Char) : List Char :=
  s.dropWhile isSpace

/-- A piece of a string: a character as it stands, or a 16-bit unit given by an escape. -/
inductive Piece where
  | char (c : Char)
  | unit (n : Nat)

/-- The unit that four hexadecimal digits spell. -/
def unit? (a b c d : Char) : Option Nat := do
  let a ← Text.hexValue? a
  let b ← Text.hexValue? b
  let c ← Text.hexValue? c
  let d ← Text.hexValue? d
  return 4096 * a + 256 * b + 16 * c + d

/-- The character that a one-letter escape stands for. -/
def escape? (c : Char) : Option Char :=
  match c with
  | '"' => some '"'
  | '\\' => some '\\'
  | '/' => some '/'
  | 'b' => some '\x08'
  | 'f' => some '\x0c'
  | 'n' => some '\n'
  | 'r' => some '\r'
  | 't' => some '\t'
  | _ => none

/-- The pieces of a string up to its closing quote, and the text behind that. -/
def readPieces : List Char → Option (List Piece × List Char)
  | [] => none
  | '"' :: s => some ([], s)
  | '\\' :: 'u' :: a :: b :: c :: d :: s => do
    let n ← unit? a b c d
    let (ps, r) ← readPieces s
    return (.unit n :: ps, r)
  | '\\' :: e :: s => do
    let c ← escape? e
    let (ps, r) ← readPieces s
    return (.char c :: ps, r)
  | c :: s =>
    if c.toNat < 0x20 ∨ c = '\\' then none
    else do
      let (ps, r) ← readPieces s
      return (.char c :: ps, r)

/-- Whether a unit is the first half of a pair. -/
def isHigh (n : Nat) : Bool := 0xD800 ≤ n && n < 0xDC00

/-- Whether a unit is the second half of a pair. -/
def isLow (n : Nat) : Bool := 0xDC00 ≤ n && n < 0xE000

/-- The characters of a string, unless half of a pair stands alone. -/
def joinPieces : List Piece → Option (List Char)
  | [] => some []
  | .char c :: ps => (joinPieces ps).map (c :: ·)
  | .unit n :: ps =>
    if isHigh n then
      match ps with
      | .unit m :: ps =>
        if isLow m then
          (joinPieces ps).map (Char.ofNat (0x10000 + 0x400 * (n - 0xD800) + (m - 0xDC00)) :: ·)
        else none
      | _ => none
    else if isLow n then none
    else (joinPieces ps).map (Char.ofNat n :: ·)

/-- A string behind its opening quote. -/
def readString (s : List Char) : Option (Option String × List Char) :=
  (readPieces s).map fun (ps, r) => ((joinPieces ps).map String.ofList, r)

mutual

/-- The value at the front of a text, and the text behind it unless the text broke off. The fuel
covers two steps for each bracket and one for each comma. -/
def readValue : (fuel : Nat) → List Char → Outline × Option (List Char)
  | 0, _ => (.broken, none)
  | fuel + 1, s =>
    match skipSpace s with
    | 'n' :: 'u' :: 'l' :: 'l' :: r => (.null, some r)
    | 't' :: 'r' :: 'u' :: 'e' :: r => (.bool true, some r)
    | 'f' :: 'a' :: 'l' :: 's' :: 'e' :: r => (.bool false, some r)
    | '"' :: r =>
      match readString r with
      | some (value, r) => (.text value, some r)
      | none => (.broken, none)
    | '[' :: r =>
      match skipSpace r with
      | ']' :: r => (.list [] true, some r)
      | r =>
        let (items, rest) := readItems fuel r
        (.list items rest.isSome, rest)
    | '{' :: r =>
      match skipSpace r with
      | '}' :: r => (.table [] true, some r)
      | r =>
        let (members, rest) := readMembers fuel r
        (.table members rest.isSome, rest)
    | s =>
      match readSpelling s with
      | some (spelling, r) => (.number spelling.value, some r)
      | none => (.broken, none)

/-- The items of a list from the first one on. -/
def readItems : (fuel : Nat) → List Char → List Outline × Option (List Char)
  | 0, _ => ([], none)
  | fuel + 1, s =>
    match readValue fuel s with
    | (item, none) => ([item], none)
    | (item, some r) =>
      match skipSpace r with
      | ',' :: r =>
        let (items, rest) := readItems fuel r
        (item :: items, rest)
      | ']' :: r => ([item], some r)
      | _ => ([item], none)

/-- The members of a table from the first one on. -/
def readMembers : (fuel : Nat) → List Char → List (Outline × Outline) × Option (List Char)
  | 0, _ => ([], none)
  | fuel + 1, s =>
    match readValue fuel s with
    | (.text (some key), some r) =>
      match skipSpace r with
      | ':' :: r =>
        match readValue fuel r with
        | (value, none) => ([(.text (some key), value)], none)
        | (value, some r) =>
          match skipSpace r with
          | ',' :: r =>
            let (members, rest) := readMembers fuel r
            ((.text (some key), value) :: members, rest)
          | '}' :: r => ([(.text (some key), value)], some r)
          | _ => ([(.text (some key), value)], none)
      | _ => ([(.text (some key), .broken)], none)
    | (key, _) => ([(key, .broken)], none)

end

/-- The value of a whole text, and whether only blanks follow it. -/
def readText (s : String) : Outline × Bool :=
  let cs := s.toList
  match readValue (2 * cs.length + 2) cs with
  | (o, some r) => (o, (skipSpace r).isEmpty)
  | (o, none) => (o, false)

mutual

/-- Whether a value is well formed, whatever its numbers and strings stand for. -/
def Outline.isWellFormed : Outline → Bool
  | .broken => false
  | .list items closed => closed && itemsWellFormed items
  | .table members closed => closed && membersWellFormed members
  | _ => true

/-- Whether all items are well formed. -/
def itemsWellFormed : List Outline → Bool
  | [] => true
  | o :: os => o.isWellFormed && itemsWellFormed os

/-- Whether all members are well formed; a key has to be a string with a value. -/
def membersWellFormed : List (Outline × Outline) → Bool
  | [] => true
  | (.text (some _), o) :: ms => o.isWellFormed && membersWellFormed ms
  | _ :: _ => false

end

mutual

/-- Whether a value can be held as a whole: well formed, every number and string with a value, and
brackets at most `levels` deep. -/
def Outline.isHeld (levels : Nat) : Outline → Bool
  | .broken => false
  | .number value => value.isSome
  | .text value => value.isSome
  | .list items closed =>
    match levels with
    | 0 => false
    | levels + 1 => closed && itemsHeld levels items
  | .table members closed =>
    match levels with
    | 0 => false
    | levels + 1 => closed && membersHeld levels members
  | _ => true

/-- Whether all items can be held. -/
def itemsHeld (levels : Nat) : List Outline → Bool
  | [] => true
  | o :: os => o.isHeld levels && itemsHeld levels os

/-- Whether all members can be held. -/
def membersHeld (levels : Nat) : List (Outline × Outline) → Bool
  | [] => true
  | (.text (some _), o) :: ms => o.isHeld levels && membersHeld levels ms
  | _ :: _ => false

end

end Switchover.Json
