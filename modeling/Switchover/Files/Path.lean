/-!
Paths as texts. A slash separates components; an empty component and a single dot add nothing, so
they do not count as the last component of a path.
-/
namespace Switchover.Files

/-- Whether a path starts at the root. -/
def isAbsolute (path : String) : Bool :=
  path.toList.head? == some '/'

/-- The path as seen from `base`; an absolute one stays as it is. -/
def join (base path : String) : String :=
  if isAbsolute path then path
  else if base.isEmpty || base.toList.getLast? == some '/' then base ++ path
  else base ++ "/" ++ path

/-- Components that add nothing to a path. -/
def isVacuous (component : List Char) : Bool :=
  component.isEmpty || component == ['.']

/-- Components with the last one at the front, from the first that counts. -/
def dropVacuous (components : List (List Char)) : List (List Char) :=
  components.dropWhile isVacuous

/-- The directory that an absolute path lies in; the root lies in none. -/
def parent? (path : String) : Option String :=
  match dropVacuous ((path.toList.drop 1).splitOn '/').reverse with
  | [] => none
  | _ :: above =>
    let components := (dropVacuous above).reverse
    some (String.ofList ('/' :: List.intercalate ['/'] components))

end Switchover.Files
