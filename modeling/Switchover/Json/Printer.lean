import Switchover.Decimal.Notation
import Switchover.Json.Value

/-!
JSON texts. The compact form has no blanks; the indented form puts every item of a list and every
member of a table on a line of its own, two spaces deeper than the brackets around it. Empty lists
and tables are a bare pair of brackets in both.
-/
namespace Switchover.Json

/-- Four lower-case hexadecimal digits of a control character. -/
def controlDigits (n : Nat) : List Char :=
  let ds := Nat.toDigits 16 n
  List.replicate (4 - ds.length) '0' ++ ds

/-- One character inside a JSON string: quotes, backslashes and control characters are escaped. -/
def escapedChar (c : Char) : List Char :=
  if c = '"' then ['\\', '"']
  else if c = '\\' then ['\\', '\\']
  else if c = '\x08' then ['\\', 'b']
  else if c = '\x0c' then ['\\', 'f']
  else if c = '\n' then ['\\', 'n']
  else if c = '\r' then ['\\', 'r']
  else if c = '\t' then ['\\', 't']
  else if c.toNat < 0x20 then ['\\', 'u'] ++ controlDigits c.toNat
  else [c]

/-- A JSON string. -/
def textLiteral (s : String) : List Char :=
  '"' :: s.toList.flatMap escapedChar ++ ['"']

/-- A JSON number; `null` stands for numbers that JSON cannot spell. -/
def realLiteral (x : Float) : List Char :=
  match Decimal.Class.of x with
  | .finite _ => (Decimal.interchange.format x).toList
  | _ => "null".toList

/-- A whole number. -/
def intLiteral (n : Int) : List Char :=
  (if n < 0 then ['-'] else []) ++ Nat.toDigits 10 n.natAbs

mutual

/-- The compact form. -/
def Value.compactChars : Value → List Char
  | .null => "null".toList
  | .bool b => (if b then "true" else "false").toList
  | .int n => intLiteral n
  | .real x => realLiteral x
  | .text s => textLiteral s
  | .list items => '[' :: compactItems items ++ [']']
  | .table members => '{' :: compactMembers members ++ ['}']

/-- The items of a list, commas between them. -/
def compactItems : List Value → List Char
  | [] => []
  | [v] => v.compactChars
  | v :: vs => v.compactChars ++ ',' :: compactItems vs

/-- The members of a table, commas between them. -/
def compactMembers : List (String × Value) → List Char
  | [] => []
  | [(k, v)] => textLiteral k ++ ':' :: v.compactChars
  | (k, v) :: ms => textLiteral k ++ ':' :: v.compactChars ++ ',' :: compactMembers ms

end

/-- A new line with `depth` levels of indentation. -/
def newLine (depth : Nat) : List Char :=
  '\n' :: List.replicate (2 * depth) ' '

mutual

/-- The indented form, `depth` levels deep. -/
def Value.indentedChars (depth : Nat) : Value → List Char
  | .list items =>
    if items.isEmpty then ['[', ']']
    else '[' :: indentedItems (depth + 1) items ++ newLine depth ++ [']']
  | .table members =>
    if members.isEmpty then ['{', '}']
    else '{' :: indentedMembers (depth + 1) members ++ newLine depth ++ ['}']
  | .null => "null".toList
  | .bool b => (if b then "true" else "false").toList
  | .int n => intLiteral n
  | .real x => realLiteral x
  | .text s => textLiteral s

/-- The items of a list, each on its line. -/
def indentedItems (depth : Nat) : List Value → List Char
  | [] => []
  | [v] => newLine depth ++ v.indentedChars depth
  | v :: vs => newLine depth ++ v.indentedChars depth ++ ',' :: indentedItems depth vs

/-- The members of a table, each on its line. -/
def indentedMembers (depth : Nat) : List (String × Value) → List Char
  | [] => []
  | [(k, v)] => newLine depth ++ textLiteral k ++ [':', ' '] ++ v.indentedChars depth
  | (k, v) :: ms =>
    newLine depth ++ textLiteral k ++ [':', ' '] ++ v.indentedChars depth
      ++ ',' :: indentedMembers depth ms

end

/-- The value on one line without blanks. -/
def Value.compact (v : Value) : String :=
  String.ofList v.compactChars

/-- The value over several lines. -/
def Value.indented (v : Value) : String :=
  String.ofList (v.indentedChars 0)

end Switchover.Json
