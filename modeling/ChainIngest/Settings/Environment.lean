import ChainIngest.Document.Place
import ChainIngest.Text.Casing

/-!
Settings from environment variables. A variable's name says which setting it is for, in any case:
`PRICEFEED__POSTGRES__PORT` is for `postgres.port`.
-/

namespace ChainIngest.Settings

/-- What the names of the variables begin with, in lower case. -/
def variableStart : List Char := "pricefeed__".toList

/-- Takes a beginning off a text. -/
def dropStart? : List Char → List Char → Option (List Char)
  | [], cs => some cs
  | _ :: _, [] => none
  | s :: start, c :: cs => if s = c then dropStart? start cs else none

/-- Double underscores part the names of a place. -/
def joinNames : List Char → List Char
  | '_' :: '_' :: rest => '.' :: joinNames rest
  | c :: rest => c :: joinNames rest
  | [] => []

/-- The key that a variable assigns, if it is one of ours. -/
def variableKey? (name : String) : Option String :=
  (dropStart? variableStart (Text.lowercase name).toList).map fun rest =>
    String.ofList (joinNames rest)

/-- The keys and values that an environment assigns. -/
def environmentValues (environment : List (String × String)) : List (String × Document) :=
  environment.filterMap fun (name, value) => (variableKey? name).map (·, .text value)

/-- A document with the environment's values over it. -/
def overlay (environment : List (String × String)) (d : Document) : Document :=
  d.assignAll (environmentValues environment)

end ChainIngest.Settings
