import Switchover.Text.Numeral

/-!
IP addresses in text: dotted IPv4, and IPv6 with one optional `::` and an optional IPv4 tail. Each
reader takes an address from the front of a text and answers the rest.
-/
namespace Switchover

/-- An IPv4 address of 32 bits or an IPv6 address of 128. -/
inductive Address where
  | v4 (value : Nat)
  | v6 (value : Nat)
  deriving DecidableEq, Repr

namespace Address

open Text (hexValue? digitsValue)

/-- IPv4 addresses come first, and inside one version the value decides. -/
def order : Address → Address → Ordering
  | v4 a, v4 b => compare a b
  | v4 _, v6 _ => .lt
  | v6 _, v4 _ => .gt
  | v6 a, v6 b => compare a b

/-- The separator has to stand before every part but the first. -/
def afterSeparator (separator : Char) (first : Bool) (s : List Char) : Option (List Char) :=
  if first then some s
  else match s with
    | c :: r => if c = separator then some r else none
    | [] => none

/-- One octet: at most three digits, no leading zero, at most 255. -/
def readOctet (s : List Char) : Option (Nat × List Char) :=
  let ds := s.takeWhile Char.isDigit
  let n := digitsValue ds
  if ds = [] ∨ 3 < ds.length ∨ 255 < n ∨ (1 < ds.length ∧ ds.head? = some '0') then none
  else some (n, s.dropWhile Char.isDigit)

/-- The next `count` octets behind their dots, as one number that continues `value`. -/
def readOctets : (count : Nat) → (first : Bool) → (value : Nat) → List Char →
    Option (Nat × List Char)
  | 0, _, value, s => some (value, s)
  | count + 1, first, value, s => do
    let r ← afterSeparator '.' first s
    let (octet, r) ← readOctet r
    readOctets count false (256 * value + octet) r

/-- Four octets. -/
def readIPv4 (s : List Char) : Option (Nat × List Char) :=
  readOctets 4 true 0 s

/-- One group of an IPv6 address: one to four hexadecimal digits, leading zeros allowed. -/
def readGroup (s : List Char) : Option (Nat × List Char) :=
  let isHex (c : Char) : Bool := (hexValue? c).isSome
  let ds := s.takeWhile isHex
  if ds = [] ∨ 4 < ds.length then none
  else some (ds.foldl (fun n c => 16 * n + (hexValue? c).getD 0) 0, s.dropWhile isHex)

/-- A run of groups, whether an IPv4 tail ended it, and what follows. -/
structure Groups where
  groups : List Nat
  tail : Bool
  rest : List Char

/-- At most `limit` groups behind their colons. An IPv4 tail fills two groups and ends the run. -/
def readGroups : (limit : Nat) → (first : Bool) → List Char → Groups
  | 0, _, s => ⟨[], false, s⟩
  | limit + 1, first, s =>
    let ipv4? := if limit = 0 then none else (afterSeparator ':' first s).bind readIPv4
    match ipv4? with
    | some (value, r) => ⟨[value / 65536, value % 65536], true, r⟩
    | none =>
      match (afterSeparator ':' first s).bind readGroup with
      | some (group, r) =>
        let more := readGroups limit false r
        { more with groups := group :: more.groups }
      | none => ⟨[], false, s⟩

/-- The number that eight groups spell. -/
def ofGroups (groups : List Nat) : Nat :=
  groups.foldl (fun n g => 65536 * n + g) 0

/-- Eight groups, or fewer with `::` for at least one group of zeros; an IPv4 tail ends the text. -/
def readIPv6 (s : List Char) : Option (Nat × List Char) :=
  let front := readGroups 8 true s
  if front.groups.length = 8 then some (ofGroups front.groups, front.rest)
  else if front.tail then none
  else match front.rest with
    | ':' :: ':' :: r =>
      let back := readGroups (7 - front.groups.length) true r
      let zeros := List.replicate (8 - front.groups.length - back.groups.length) 0
      some (ofGroups (front.groups ++ zeros ++ back.groups), back.rest)
    | _ => none

/-- The address that the whole text spells. -/
def read? (s : List Char) : Option Address :=
  match readIPv4 s with
  | some (value, r) => if r = [] then some (v4 value) else none
  | none =>
    match readIPv6 s with
    | some (value, r) => if r = [] then some (v6 value) else none
    | none => none

end Address

end Switchover
