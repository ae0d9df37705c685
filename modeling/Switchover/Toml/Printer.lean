import Switchover.Text.Quoted

/-!
Writing TOML: sections of assignments, and strings in the plainest form that can hold them. A
string prefers double quotes without escapes, then single quotes, then the same over several lines,
and takes escapes only where no other form is possible.
-/
namespace Switchover.Toml

/-- The longest run of a character in a text. -/
def longestRun (c : Char) (s : List Char) : Nat :=
  (s.foldl (fun (best, run) d => if d = c then (max best (run + 1), run + 1) else (best, 0))
    ((0, 0) : Nat × Nat)).1

/-- Control characters that only an escape can spell. -/
def needsEscape (c : Char) : Bool :=
  c != '\t' && c != '\n' && (c.toNat < 0x20 || c.toNat == 0x7F)

/-- Four upper-case hexadecimal digits. -/
def unitDigits (n : Nat) : List Char :=
  let ds := (Text.hexadecimal n).map Char.toUpper
  List.replicate (4 - ds.length) '0' ++ ds

/-- A character between double quotes, apart from the quote itself. -/
def escapedChar (long : Bool) (c : Char) : List Char :=
  if c = '\\' then ['\\', '\\']
  else if c = '\x08' then ['\\', 'b']
  else if c = '\t' then ['\\', 't']
  else if c = '\n' then (if long then ['\n'] else ['\\', 'n'])
  else if c = '\x0c' then ['\\', 'f']
  else if c = '\r' then ['\\', 'r']
  else if needsEscape c then ['\\', 'u'] ++ unitDigits c.toNat
  else [c]

/-- A text between double quotes. Over several lines two quotes in a row stand for themselves; `run`
counts those just written. -/
def escapedChars (long : Bool) (run : Nat) : List Char → List Char
  | [] => []
  | '"' :: s =>
    if long && run < 2 then '"' :: escapedChars long (run + 1) s
    else ['\\', '"'] ++ escapedChars long 0 s
  | c :: s => escapedChar long c ++ escapedChars long 0 s

/-- A string over several lines starts on a line of its own if it has line breaks. -/
def longForm (quotes body : List Char) (hasBreak : Bool) : List Char :=
  quotes ++ (if hasBreak then ['\n'] else []) ++ body ++ quotes

/-- A string. -/
def textLiteral (s : String) : String :=
  let cs := s.toList
  let hasBreak := cs.contains '\n'
  let hasControl := cs.any needsEscape
  let hasBackslash := cs.contains '\\'
  let singles := longestRun '\'' cs
  let doubles := longestRun '"' cs
  let triple := ['"', '"', '"']
  String.ofList <|
    if !hasControl && !hasBackslash && doubles = 0 && !hasBreak then
      ['"'] ++ escapedChars false 0 cs ++ ['"']
    else if !hasControl && singles = 0 && !hasBreak then ['\''] ++ cs ++ ['\'']
    else if !hasControl && !hasBackslash && doubles ≤ 2 then
      longForm triple (escapedChars true 0 cs) hasBreak
    else if !hasControl && singles ≤ 2 then longForm ['\'', '\'', '\''] cs hasBreak
    else if hasBreak then longForm triple (escapedChars true 0 cs) hasBreak
    else ['"'] ++ escapedChars false 0 cs ++ ['"']

/-- A value that can be written. -/
inductive Literal where
  | nat (n : Nat)
  | text (s : String)
  deriving DecidableEq, Repr

/-- A value as it is written. -/
def Literal.render : Literal → String
  | nat n => toString n
  | text s => textLiteral s

/-- A table with its header. -/
structure Section where
  name : String
  assignments : List (String × Literal)
  deriving DecidableEq, Repr

/-- A table over several lines. -/
def Section.render (t : Section) : String :=
  "[" ++ t.name ++ "]\n"
    ++ String.join (t.assignments.map fun (k, v) => k ++ " = " ++ v.render ++ "\n")

/-- Tables with an empty line between them. -/
def render (sections : List Section) : String :=
  String.intercalate "\n" (sections.map Section.render)

end Switchover.Toml
