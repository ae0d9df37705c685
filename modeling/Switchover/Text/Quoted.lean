import Switchover.Text.Hidden

/-!
Quoted texts, as messages show the text they complain about: between double quotes, on one line,
with every character visible.
-/
namespace Switchover.Text

/-- A number in lower-case hexadecimal digits. -/
def hexadecimal (n : Nat) : List Char :=
  Nat.toDigits 16 n

/-- How one character is shown inside quotes. -/
def quotedChar (c : Char) : List Char :=
  if c = '"' then ['\\', '"']
  else if c = '\\' then ['\\', '\\']
  else if c = '\n' then ['\\', 'n']
  else if c = '\r' then ['\\', 'r']
  else if c = '\t' then ['\\', 't']
  else if c = '\x00' then ['\\', '0']
  else if isHidden c then ['\\', 'u', '{'] ++ hexadecimal c.toNat ++ ['}']
  else [c]

/-- The text between double quotes, each character as `quotedChar` shows it. -/
def quoted (s : String) : String :=
  String.ofList ('"' :: s.toList.flatMap quotedChar ++ ['"'])

end Switchover.Text
