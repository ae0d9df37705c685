import Switchover.Decimal.Notation
import Switchover.Json.Outline
import Switchover.Text.Quoted

/-!
Typed reading of JSON outlines. Every reader walks its outline in the order of the text and stops at
the first problem: a value that does not fit (a mismatch, which has a message), or a place where the
text stops being JSON.
-/
namespace Switchover.Json

/-- What stands in a text where something else is wanted. -/
inductive Found where
  | null
  | bool (b : Bool)
  | int (n : Int)
  | real (x : Float)
  | text (s : String)
  | list
  | table

/-- The way a found value is named in a message. -/
def Found.message : Found → String
  | .null => "null"
  | .bool b => "boolean " ++ "\x60" ++ (if b then "true" else "false") ++ "\x60"
  | .int n => "integer " ++ "\x60" ++ toString n ++ "\x60"
  | .real x => "floating point " ++ "\x60" ++ Decimal.interchange.format x ++ "\x60"
  | .text s => "string " ++ Text.quoted s
  | .list => "sequence"
  | .table => "map"

/-- How a well-formed value fails to be what is wanted. -/
inductive Mismatch where
  | wrongType (found : Found) (expected : String)
  | wrongValue (found : Found) (expected : String)
  | wrongLength (length : Nat) (expected : String)
  | missingField (field : String)
  | repeatedField (field : String)
  | unknownField (field : String) (fields : List String)
  | unknownVariant (variant : String) (variants : List String)
  | noAlternative (type : String)

/-- A name in a message. -/
def marked (s : String) : String :=
  "\x60" ++ s ++ "\x60"

/-- The names that would have been accepted. -/
def oneOf : List String → String
  | [a] => marked a
  | [a, b] => marked a ++ " or " ++ marked b
  | names => "one of " ++ String.intercalate ", " (names.map marked)

/-- The mismatch in words. -/
def Mismatch.message : Mismatch → String
  | .wrongType found expected => "invalid type: " ++ found.message ++ ", expected " ++ expected
  | .wrongValue found expected => "invalid value: " ++ found.message ++ ", expected " ++ expected
  | .wrongLength n expected => "invalid length " ++ toString n ++ ", expected " ++ expected
  | .missingField field => "missing field " ++ marked field
  | .repeatedField field => "duplicate field " ++ marked field
  | .unknownField field fields => "unknown field " ++ marked field ++ ", expected " ++ oneOf fields
  | .unknownVariant v variants => "unknown variant " ++ marked v ++ ", expected " ++ oneOf variants
  | .noAlternative type => "data did not match any variant of untagged enum " ++ type

/-- Why a text gives no value. -/
inductive Fault where
  | malformed
  | mismatch (m : Mismatch)

/-- The result of reading a value of type `α`. -/
abbrev Decoded (α : Type) := Except Fault α

namespace Outline

/-- What the outline shows at its front; nothing if the text is broken there. -/
def found? : Outline → Option Found
  | .null => some .null
  | .bool b => some (.bool b)
  | .number (some (.natural n)) => some (.int n)
  | .number (some (.negative n)) => some (.int n)
  | .number (some (.real x)) => some (.real x)
  | .number none => none
  | .text (some s) => some (.text s)
  | .text none => none
  | .list _ _ => some .list
  | .table _ _ => some .table
  | .broken => none

/-- Refuses the outline in favour of something else. -/
def refuse {α : Type} (o : Outline) (expected : String) : Decoded α :=
  match o.found? with
  | none => .error .malformed
  | some found => .error (.mismatch (.wrongType found expected))

/-- A natural number up to `bound`. -/
def toNat (bound : Nat) (expected : String) : Outline → Decoded Nat
  | .number (some (.natural n)) =>
    if n ≤ bound then .ok n else .error (.mismatch (.wrongValue (.int n) expected))
  | .number (some (.negative n)) => .error (.mismatch (.wrongValue (.int n) expected))
  | o => o.refuse expected

/-- A count or identifier of 64 bits. -/
def toUInt64 (o : Outline) : Decoded UInt64 :=
  (o.toNat (UInt64.size - 1) "u64").map UInt64.ofNat

/-- A count of 32 bits. -/
def toUInt32 (o : Outline) : Decoded UInt32 :=
  (o.toNat (UInt32.size - 1) "u32").map UInt32.ofNat

/-- A number that need not be whole. -/
def toFloat : Outline → Decoded Float
  | .number (some (.natural n)) => .ok (UInt64.ofNat n).toFloat
  | .number (some (.negative n)) => .ok (-(UInt64.ofNat n.natAbs).toFloat)
  | .number (some (.real x)) => .ok x
  | o => o.refuse "f64"

/-- A truth value. -/
def toBool : Outline → Decoded Bool
  | .bool b => .ok b
  | o => o.refuse "a boolean"

/-- A string. -/
def toText : Outline → Decoded String
  | .text (some s) => .ok s
  | o => o.refuse "a string"

/-- What follows the last accepted item: the closing bracket. -/
def finish (closed : Bool) : Decoded Unit :=
  if closed then .ok () else .error .malformed

/-- A list of any length. -/
def toList {α : Type} (item : Outline → Decoded α) : Outline → Decoded (List α)
  | .list items closed => do
    let values ← items.mapM item
    finish closed
    return values
  | o => o.refuse "a sequence"

/-- A pair, as a list of two. -/
def toPair {α β : Type} (first : Outline → Decoded α) (second : Outline → Decoded β) :
    Outline → Decoded (α × β)
  | .list items closed => do
    let expected := "a tuple of size 2"
    match items with
    | [] => do
      finish closed
      .error (.mismatch (.wrongLength 0 expected))
    | a :: rest => do
      let a ← first a
      match rest with
      | [] => do
        finish closed
        .error (.mismatch (.wrongLength 1 expected))
      | b :: rest => do
        let b ← second b
        finish (closed && rest.isEmpty)
        return (a, b)
  | o => o.refuse "a tuple of size 2"

/-- The key of a member. -/
def toKey : Outline → Decoded String
  | .text (some k) => .ok k
  | _ => .error .malformed

/-- A table with keys of the caller's, in the order of the text. -/
def toMembers {α : Type} (value : Outline → Decoded α) : Outline → Decoded (List (String × α))
  | .table members closed => do
    let entries ← members.mapM fun (k, v) => do
      let k ← k.toKey
      let v ← value v
      return (k, v)
    finish closed
    return entries
  | o => o.refuse "a map"

/-- A value that may be `null`. -/
def toOptional {α : Type} (value : Outline → Decoded α) : Outline → Decoded (Option α)
  | .null => .ok none
  | o => (value o).map some

/-- One of several words, also as a table whose only member has the word as its key and `null` as
its value. Any other shape is no word at all. -/
def toWord {α : Type} (words : List (String × α)) : Outline → Decoded α
  | .text (some s) => word s
  | .table ((k, v) :: more) closed => do
    let chosen ← match k with
      | .text (some s) => word s
      | k => k.refuse "variant identifier"
    match v with
    | .null => do
      finish (closed && more.isEmpty)
      return chosen
    | v => v.refuse "unit"
  | _ => .error .malformed
where
  word (s : String) : Decoded α :=
    match words.lookup s with
    | some a => .ok a
    | none => .error (.mismatch (.unknownVariant s (words.map (·.1))))

end Outline

/-- The fields of a structure in order, the first `required` of which have no default, and how a
field's value enters a structure under construction. -/
structure Form (α : Type) where
  /-- How messages name the structure. -/
  name : String
  /-- How messages name the structure when it is given as a list that is too short. -/
  listName : String
  fields : List String
  required : Nat
  /-- Fields other than the known ones are refused instead of skipped. -/
  strict : Bool
  accept : α → String → Outline → Decoded α

namespace Form

variable {α : Type}

/-- Reads one member behind those in `seen`. -/
def member (form : Form α) (state : List String × α) (key : Outline) (value : Outline) :
    Decoded (List String × α) := do
  let k ← key.toKey
  if k ∈ form.fields then
    if k ∈ state.1 then .error (.mismatch (.repeatedField k))
    else return (k :: state.1, ← form.accept state.2 k value)
  else if form.strict then .error (.mismatch (.unknownField k form.fields))
  else if value.isWellFormed then return state
  else .error .malformed

/-- Reads the structure into `start`, from a table of its fields in any order or from a list of its
fields in their own order. -/
def decode (form : Form α) (start : α) : Outline → Decoded α
  | .table members closed => do
    let (seen, a) ← members.foldlM (fun state (k, v) => form.member state k v) ([], start)
    Outline.finish closed
    match (form.fields.take form.required).find? fun field => field ∉ seen with
    | some field => .error (.mismatch (.missingField field))
    | none => return a
  | .list items closed => do
    let a ← (form.fields.zip items).foldlM (fun a (k, v) => form.accept a k v) start
    Outline.finish (closed && items.length ≤ form.fields.length)
    if items.length < form.required then
      .error (.mismatch (.wrongLength items.length form.listName))
    else return a
  | o => o.refuse form.name

end Form

/-- The usual form: unknown fields are skipped, and a list that is too short is reported with the
number of fields. -/
def Form.lenient {α : Type} (name : String) (fields : List String) (required : Nat)
    (accept : α → String → Outline → Decoded α) : Form α where
  name := "struct " ++ name
  listName :=
    "struct " ++ name ++ " with " ++ toString fields.length
      ++ (if fields.length = 1 then " element" else " elements")
  fields
  required
  strict := false
  accept

/-- Brackets may be nested this deep around a value that is held as a whole. -/
def deepest : Nat := 127

/-- Reads a value that is held as a whole before its alternatives are tried in turn; `level`
brackets stand around it. -/
def firstOf {α : Type} (type : String) (level : Nat) (alternatives : List (Outline → Decoded α))
    (o : Outline) : Decoded α :=
  if o.isHeld (deepest - level) then
    match alternatives.findSome? fun read => (read o).toOption with
    | some a => .ok a
    | none => .error (.mismatch (.noAlternative type))
  else .error .malformed

/-- Reads a whole text; only blanks may follow the value. -/
def decodeText {α : Type} (read : Outline → Decoded α) (s : String) : Decoded α := do
  let (o, ended) := readText s
  let a ← read o
  Outline.finish ended
  return a

end Switchover.Json
