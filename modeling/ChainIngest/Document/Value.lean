/-!
Documents: the values that configuration files and messages are made of.
-/

namespace ChainIngest

/-- A value of a document. The entries of a table are in the order of their first appearance, and
no two have one key. -/
inductive Document where
  | null
  | bool (value : Bool)
  | integer (value : Int)
  | float (value : Float)
  | text (value : String)
  | list (items : List Document)
  | table (entries : List (String × Document))
  deriving Inhabited

namespace Document

/-- Sets the value of a key: in place if the key is there, at the end if not. -/
def putEntry (key : String) (value : Document) :
    List (String × Document) → List (String × Document)
  | [] => [(key, value)]
  | (k, v) :: rest => if k = key then (k, value) :: rest else (k, v) :: putEntry key value rest

/-- The value of a key in a table. -/
def get? (d : Document) (key : String) : Option Document :=
  match d with
  | .table entries => entries.lookup key
  | _ => none

/-- The entries of a table. -/
def entries (d : Document) : List (String × Document) :=
  match d with
  | .table entries => entries
  | _ => []

/-- The items of a list. -/
def items (d : Document) : List Document :=
  match d with
  | .list items => items
  | _ => []

end Document

end ChainIngest
