import Switchover.Decimal.Binary
import Switchover.Text.Numeral
import Switchover.Toml.Document

/-!
Reading TOML texts. Each reader takes something from the front of a text and answers the rest, or
nothing if it is not there. A whole text is a sequence of statements, each on a line of its own
with an optional comment behind it.
-/
namespace Switchover.Toml

/-- A reader of values of type `α`. -/
abbrev Reader (α : Type) := List Char → Option (α × List Char)

/-- Blanks inside a line. -/
def isSpace (c : Char) : Bool :=
  c == ' ' || c == '\t'

/-- The text from the next character that is no blank. -/
def skipSpace (s : List Char) : List Char :=
  s.dropWhile isSpace

/-- Characters that a comment may hold. -/
def isCommentChar (c : Char) : Bool :=
  c == '\t' || (0x20 ≤ c.toNat && c.toNat != 0x7F)

/-- The text behind a comment, if there is one. -/
def skipComment : List Char → List Char
  | '#' :: s => s.dropWhile isCommentChar
  | s => s

/-- The text behind a line break. -/
def newline? : List Char → Option (List Char)
  | '\n' :: s => some s
  | '\r' :: '\n' :: s => some s
  | _ => none

/-- The end of a line, or of the text. -/
def lineEnd? (s : List Char) : Option (List Char) :=
  if s = [] then some [] else newline? s

/-- The rest of a line behind a statement: blanks, a comment, the end of the line. -/
def trailing? (s : List Char) : Option (List Char) :=
  lineEnd? (skipComment (skipSpace s))

/-- The text behind blanks, line breaks and comments, as they may stand between the items of a
list. A comment has to end with its line. -/
def skipFiller : (fuel : Nat) → List Char → List Char
  | 0, s => s
  | fuel + 1, s =>
    match skipSpace s with
    | '#' :: r =>
      match newline? (r.dropWhile isCommentChar) with
      | some r => skipFiller fuel r
      | none => '#' :: r
    | s =>
      match newline? s with
      | some r => skipFiller fuel r
      | none => s

/-- The character with a code point given in hexadecimal, if there is one. -/
def scalar? (digits : List Char) : Option Char := do
  let ds ← digits.mapM Text.hexValue?
  let n := ds.foldl (fun n d => 16 * n + d) 0
  if n < 0xD800 ∨ (0xE000 ≤ n ∧ n < 0x110000) then some (Char.ofNat n) else none

/-- An escape in a basic string, behind its backslash. -/
def readEscape : Reader Char
  | 'b' :: s => some ('\x08', s)
  | 't' :: s => some ('\t', s)
  | 'n' :: s => some ('\n', s)
  | 'f' :: s => some ('\x0c', s)
  | 'r' :: s => some ('\r', s)
  | '"' :: s => some ('"', s)
  | '\\' :: s => some ('\\', s)
  | 'u' :: s => if s.length < 4 then none else (scalar? (s.take 4)).map (·, s.drop 4)
  | 'U' :: s => if s.length < 8 then none else (scalar? (s.take 8)).map (·, s.drop 8)
  | _ => none

/-- Characters that stand for themselves in a string on one line. -/
def isPlainChar (c : Char) : Bool :=
  isCommentChar c

/-- A basic string behind its opening quote. -/
def readBasic : (fuel : Nat) → Reader (List Char)
  | 0, _ => none
  | _ + 1, '"' :: s => some ([], s)
  | fuel + 1, '\\' :: s => do
    let (c, s) ← readEscape s
    let (cs, s) ← readBasic fuel s
    return (c :: cs, s)
  | fuel + 1, c :: s => do
    if isPlainChar c then
      let (cs, s) ← readBasic fuel s
      return (c :: cs, s)
    else none
  | _ + 1, [] => none

/-- A literal string behind its opening quote. -/
def readLiteral : Reader (List Char)
  | '\'' :: s => some ([], s)
  | c :: s =>
    if isPlainChar c then do
      let (cs, s) ← readLiteral s
      return (c :: cs, s)
    else none
  | [] => none

/-- The end of a string over several lines: three quotes, with up to two more that belong to it. -/
def closing? (quote : Char) (s : List Char) : Option (List Char × List Char) :=
  let n := (s.takeWhile (· == quote)).length
  if n < 3 then none
  else
    let own := min (n - 3) 2
    some (List.replicate own quote, s.drop (own + 3))

/-- The text behind a backslash at the end of a line, with all blanks and line breaks up to the next
other character. -/
def skipFolded (s : List Char) : Option (List Char) := do
  let s ← newline? (skipSpace s)
  return dropBlankLines (s.length + 1) s
where
  dropBlankLines : Nat → List Char → List Char
    | 0, s => s
    | fuel + 1, s =>
      let s := skipSpace s
      match newline? s with
      | some r => dropBlankLines fuel r
      | none => s

/-- A basic string over several lines. -/
def readLongBasic : (fuel : Nat) → Reader (List Char)
  | 0, _ => none
  | fuel + 1, s =>
    match closing? '"' s with
    | some (own, r) => some (own, r)
    | none =>
      match s with
      | '\\' :: r =>
        match skipFolded r with
        | some r => readLongBasic fuel r
        | none => do
          let (c, r) ← readEscape r
          let (cs, r) ← readLongBasic fuel r
          return (c :: cs, r)
      | c :: r =>
        match newline? s with
        | some r => do
          let (cs, r) ← readLongBasic fuel r
          return ('\n' :: cs, r)
        | none =>
          if isPlainChar c then do
            let (cs, r) ← readLongBasic fuel r
            return (c :: cs, r)
          else none
      | [] => none

/-- A literal string over several lines. -/
def readLongLiteral : (fuel : Nat) → Reader (List Char)
  | 0, _ => none
  | fuel + 1, s =>
    match closing? '\'' s with
    | some (own, r) => some (own, r)
    | none =>
      match newline? s with
      | some r => do
        let (cs, r) ← readLongLiteral fuel r
        return ('\n' :: cs, r)
      | none =>
        match s with
        | c :: r =>
          if isPlainChar c then do
            let (cs, r) ← readLongLiteral fuel r
            return (c :: cs, r)
          else none
        | [] => none

/-- The text without a line break at its start. -/
def skipFirstBreak (s : List Char) : List Char :=
  (newline? s).getD s

/-- A string of any of the four kinds. -/
def readText : Reader String
  | '"' :: '"' :: '"' :: s =>
    let s := skipFirstBreak s
    (readLongBasic (s.length + 1) s).map fun (cs, r) => (String.ofList cs, r)
  | '\'' :: '\'' :: '\'' :: s =>
    let s := skipFirstBreak s
    (readLongLiteral (s.length + 1) s).map fun (cs, r) => (String.ofList cs, r)
  | '"' :: s => (readBasic (s.length + 1) s).map fun (cs, r) => (String.ofList cs, r)
  | '\'' :: s => (readLiteral s).map fun (cs, r) => (String.ofList cs, r)
  | _ => none

/-- Characters of a key without quotes. -/
def isBareChar (c : Char) : Bool :=
  c.isAlphanum || c == '_' || c == '-'

/-- One part of a key. -/
def readKeyPart : Reader String
  | '"' :: s => (readBasic (s.length + 1) s).map fun (cs, r) => (String.ofList cs, r)
  | '\'' :: s => (readLiteral s).map fun (cs, r) => (String.ofList cs, r)
  | s =>
    match s.takeWhile isBareChar with
    | [] => none
    | cs => some (String.ofList cs, s.dropWhile isBareChar)

/-- The parts of a key between dots, with blanks around each. -/
def readKeyParts : (fuel : Nat) → Reader (List String)
  | 0, _ => none
  | fuel + 1, s => do
    let (part, s) ← readKeyPart (skipSpace s)
    match skipSpace s with
    | '.' :: r =>
      let (parts, r) ← readKeyParts fuel r
      return (part :: parts, r)
    | r => return ([part], r)

/-- The number of parts that a key may not reach, and the depth that lists and tables between
braces may not reach. -/
def depthLimit : Nat := 80

/-- A dotted key. -/
def readKey : Reader Key := fun s => do
  let (parts, r) ← readKeyParts (s.length + 1) s
  let last ← parts.getLast?
  if depthLimit ≤ parts.length then none else return (⟨parts.dropLast, last⟩, r)

/-- Digits of one kind with single underscores between them. -/
def readDigits (isDigit : Char → Bool) : Reader (List Char)
  | c :: s =>
    if isDigit c then
      match s with
      | '_' :: d :: r =>
        if isDigit d then (readDigits isDigit (d :: r)).map fun (ds, r) => (c :: ds, r) else none
      | '_' :: [] => none
      | d :: r =>
        if isDigit d then (readDigits isDigit (d :: r)).map fun (ds, r) => (c :: ds, r)
        else some ([c], d :: r)
      | [] => some ([c], [])
    else none
  | [] => none

/-- A sign, and whether it is a minus. -/
def readSign : List Char → Bool × List Char
  | '-' :: s => (true, s)
  | '+' :: s => (false, s)
  | s => (false, s)

/-- Decimal digits without a leading zero. -/
def readWhole : Reader (List Char)
  | '0' :: s => some (['0'], s)
  | s => readDigits Char.isDigit s

/-- An exponent behind its letter. -/
def readExponent : Reader Int
  | c :: s =>
    if c = 'e' ∨ c = 'E' then
      let (minus, s) := readSign s
      (readDigits Char.isDigit s).map fun (ds, r) =>
        let n : Int := Text.digitsValue ds
        (if minus then -n else n, r)
    else none
  | [] => none

/-- A number with a fraction or an exponent. A positive one beyond the largest finite number is
refused. -/
def readReal : Reader Node := fun s => do
  let (minus, r) := readSign s
  match r with
  | 'i' :: 'n' :: 'f' :: r => return (.other, r)
  | 'n' :: 'a' :: 'n' :: r => return (.other, r)
  | r =>
    let (whole, r) ← readWhole r
    let (places, e, r) ← match r with
      | '.' :: r => do
        let (places, r) ← readDigits Char.isDigit r
        match readExponent r with
        | some (e, r) => some (places, e, r)
        | none => some (places, 0, r)
      | r => do
        let (e, r) ← readExponent r
        some ([], e, r)
    let x := Decimal.nearestDecimal minus (Text.digitsValue (whole ++ places)) (e - places.length)
    if x.isInf && !minus then none else return (.other, r)

/-- Whether a character is a digit of a base up to sixteen. -/
def isDigitOf (base : Nat) (c : Char) : Bool :=
  match Text.hexValue? c with
  | some d => d < base
  | none => false

/-- Digits of a base, as a number. -/
def readBase (base : Nat) : Reader Nat := fun s => do
  let (ds, r) ← readDigits (isDigitOf base) s
  return (ds.foldl (fun n c => base * n + (Text.hexValue? c).getD 0) 0, r)

/-- A whole number in decimal digits with an optional sign, or in one of three other bases. -/
def readWholeNumber : Reader Int
  | '0' :: 'x' :: r => (readBase 16 r).map fun (n, r) => ((n : Int), r)
  | '0' :: 'o' :: r => (readBase 8 r).map fun (n, r) => ((n : Int), r)
  | '0' :: 'b' :: r => (readBase 2 r).map fun (n, r) => ((n : Int), r)
  | s =>
    let (minus, r) := readSign s
    (readWhole r).map fun (ds, r) =>
      let n : Int := Text.digitsValue ds
      (if minus then -n else n, r)

/-- A whole number of 64 bits. -/
def readInt : Reader Node := fun s => do
  let (n, r) ← readWholeNumber s
  if Int64.minValue.toInt ≤ n ∧ n ≤ Int64.maxValue.toInt then return (.int n, r) else none

/-- A number of exactly `count` digits between two bounds. -/
def readField (count least greatest : Nat) : Reader Nat := fun s =>
  let ds := s.take count
  let n := Text.digitsValue ds
  if ds.length = count ∧ ds.all Char.isDigit ∧ least ≤ n ∧ n ≤ greatest then some (n, s.drop count)
  else none

/-- A character that has to stand next. -/
def expect (c : Char) : List Char → Option (List Char)
  | d :: s => if d = c then some s else none
  | [] => none

/-- The days of a month. -/
def monthDays (year month : Nat) : Nat :=
  if month = 2 then (if year % 4 = 0 ∧ (year % 100 ≠ 0 ∨ year % 400 = 0) then 29 else 28)
  else if month ∈ [4, 6, 9, 11] then 30 else 31

/-- A date. -/
def readDate (s : List Char) : Option (List Char) := do
  let (year, s) ← readField 4 0 9999 s
  let (month, s) ← readField 2 1 12 (← expect '-' s)
  let (_, s) ← readField 2 1 (monthDays year month) (← expect '-' s)
  return s

/-- A time of the day, which may be a leap second. -/
def readTime (s : List Char) : Option (List Char) := do
  let (_, s) ← readField 2 0 23 s
  let (_, s) ← readField 2 0 59 (← expect ':' s)
  let (_, s) ← readField 2 0 60 (← expect ':' s)
  match s with
  | '.' :: r =>
    if (r.takeWhile Char.isDigit).isEmpty then return s else return r.dropWhile Char.isDigit
  | s => return s

/-- An offset from universal time. -/
def readOffset : List Char → Option (List Char)
  | 'Z' :: s => some s
  | 'z' :: s => some s
  | c :: s =>
    if c = '+' ∨ c = '-' then do
      let (_, s) ← readField 2 0 23 s
      let (_, s) ← readField 2 0 59 (← expect ':' s)
      return s
    else none
  | [] => none

/-- A date, a time, or a date and a time with an optional offset. -/
def readMoment : Reader Node := fun s =>
  match readDate s with
  | none => (readTime s).map fun r => (.moment, r)
  | some r =>
    let time? := match r with
      | c :: t => if c = 'T' ∨ c = 't' ∨ c = ' ' then readTime t else none
      | [] => none
    match time? with
    | none => some (.moment, r)
    | some t => some (.moment, (readOffset t).getD t)

/-- The first of three readings that fits. -/
def readNumber : Reader Node := fun s =>
  match readMoment s with
  | some r => some r
  | none =>
    match readReal s with
    | some r => some r
    | none => readInt s

mutual

/-- A value, inside `depth` lists and tables, with `room` for values inside it. -/
def readValue : (room depth : Nat) → Reader Node
  | 0, _, _ => none
  | room + 1, depth, s =>
    match s with
    | '"' :: _ => (readText s).map fun (t, r) => (.text t, r)
    | '\'' :: _ => (readText s).map fun (t, r) => (.text t, r)
    | '[' :: r =>
      if depthLimit ≤ depth + 1 then none
      else do
        let (items, r) ← readItems room (depth + 1) (skipFiller r.length r)
        return (.list items, r)
    | '{' :: r =>
      if depthLimit ≤ depth + 1 then none
      else
        match skipSpace r with
        | '}' :: r => do return (← braced [], r)
        | r => do
          let (assignments, r) ← readAssignments room (depth + 1) r
          return (← braced assignments, r)
    | 't' :: 'r' :: 'u' :: 'e' :: r => some (.other, r)
    | 'f' :: 'a' :: 'l' :: 's' :: 'e' :: r => some (.other, r)
    | s => readNumber s

/-- The items of a list up to its bracket; a comma may stand behind the last one. -/
def readItems : (room depth : Nat) → Reader (List Node)
  | 0, _, _ => none
  | room + 1, depth, s =>
    match s with
    | ']' :: r => some ([], r)
    | s => do
      let (item, r) ← readValue room depth s
      match skipFiller r.length r with
      | ',' :: r => do
        let (items, r) ← readItems room depth (skipFiller r.length r)
        return (item :: items, r)
      | ']' :: r => return ([item], r)
      | _ => none

/-- The assignments between braces, at least one, up to the closing brace. -/
def readAssignments : (room depth : Nat) → Reader (List (Key × Node))
  | 0, _, _ => none
  | room + 1, depth, s => do
    let (key, r) ← readKey s
    let (node, r) ← readValue room depth (skipSpace (← expect '=' r))
    match skipSpace r with
    | ',' :: r => do
      let (assignments, r) ← readAssignments room depth r
      return ((key, node) :: assignments, r)
    | '}' :: r => return ([(key, node)], r)
    | _ => none

end

/-- One statement, or an empty line, at the front of a text. -/
def readStatement (d : Draft) (s : List Char) : Option (Draft × List Char) :=
  match s with
  | '#' :: _ => do return (d, ← lineEnd? (skipComment s))
  | '\n' :: r => some (d, r)
  | '\r' :: '\n' :: r => some (d, r)
  | '[' :: '[' :: r => do
    let (key, r) ← readKey r
    let r ← trailing? (← expect ']' (← expect ']' r))
    return (← d.repeatedHeader key, r)
  | '[' :: r => do
    let (key, r) ← readKey r
    let r ← trailing? (← expect ']' r)
    return (← d.header key, r)
  | s => do
    let (key, r) ← readKey s
    let r := skipSpace (← expect '=' r)
    let (node, r) ← readValue (2 * r.length + 2) 0 r
    return (← d.assign key node, ← trailing? r)

/-- All statements of a text. -/
def readStatements : (fuel : Nat) → Draft → List Char → Option Draft
  | 0, _, _ => none
  | fuel + 1, d, s =>
    match skipSpace s with
    | [] => some d
    | s => do
      let (d, r) ← readStatement d s
      readStatements fuel d r

/-- The tables of a document, whose text may begin with a byte order mark. -/
def read? (s : String) : Option Entries := do
  let cs := match s.toList with
    | c :: r => if c = Char.ofNat 0xFEFF then r else c :: r
    | [] => []
  let d ← readStatements (cs.length + 1) .empty cs
  d.close

end Switchover.Toml
