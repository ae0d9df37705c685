import Switchover.Text.Alphanumeric

/-!
File names for captures. A test's name is free text; its words survive, each gap between them
becomes one underscore, and so the result is always a single component of a path.
-/
namespace Switchover.Evidence

/-- Characters that a word of a test's name is made of. -/
def isWordChar (c : Char) : Bool :=
  Text.isAlphanumeric c || c == '-'

/-- A character of a word as it is, any other as an underscore. -/
def maskedChar (c : Char) : Char :=
  if isWordChar c then c else '_'

/-- The text with each run of underscores cut down to one. -/
def squeeze (s : List Char) : List Char :=
  s.foldr (fun c s => if c = '_' ∧ s.head? = some '_' then s else c :: s) []

/-- What every capture file's name ends in. -/
def ending : List Char := "_dump.pcap".toList

/-- The name of the file that holds the capture of a test. -/
def fileName (test : String) : String :=
  String.ofList (squeeze (test.toList.map maskedChar ++ ending))

end Switchover.Evidence
