import ChainIngest.Document.Value

/-!
Places in documents: a name, and names and indexes after it, as in `chains[0].name`. A value can be
put at any place; what stands in the way is replaced.
-/

namespace ChainIngest

/-- A step to a part of a document. -/
inductive PlaceStep where
  | field (name : String)
  /-- An item of a list; a negative index counts from the end. -/
  | item (index : Int)
  deriving DecidableEq, Repr

/-- A place in a document, step by step. -/
abbrev Place := List PlaceStep

namespace Place

def isNameChar (c : Char) : Bool :=
  ('a' ≤ c && c ≤ 'z') || ('A' ≤ c && c ≤ 'Z') || ('0' ≤ c && c ≤ '9') || c == '_' || c == '-'

/-- The steps after the name that a place begins with. `name` holds the characters of the name
under way, the last one first; it never ends empty. -/
def readSteps (name : List Char) : List Char → Option Place
  | [] => if name.isEmpty then none else some [.field (String.ofList name.reverse)]
  | c :: rest =>
    if isNameChar c then readSteps (c :: name) rest
    else if name.isEmpty then none
    else (.field (String.ofList name.reverse) :: ·) <$> readAfter (c :: rest)
where
  /-- What may follow a name or an index. -/
  readAfter : List Char → Option Place
    | [] => some []
    | '.' :: rest => readSteps [] rest
    | '[' :: '-' :: rest => readIndex true 0 0 rest
    | '[' :: rest => readIndex false 0 0 rest
    | _ => none
  /-- The digits of an index, `count` of which have been read. -/
  readIndex (negative : Bool) (value count : Nat) : List Char → Option Place
    | ']' :: rest =>
      if count = 0 ∨ Nat.pow 2 63 ≤ value then none
      else (.item (if negative then -value else value) :: ·) <$> readAfter rest
    | c :: rest =>
      if '0' ≤ c ∧ c ≤ '9' then
        readIndex negative (value * 10 + (c.toNat - '0'.toNat)) (count + 1) rest
      else none
    | [] => none

/-- Reads a place. -/
def ofString? (s : String) : Option Place := readSteps [] s.toList

end Place

namespace Document

/-- The items of a list with one item changed. Missing items are added as nulls, in front for an
index that counts from the end. -/
def updateItem (index : Int) (f : Document → Document) (items : List Document) :
    List Document :=
  let position := if 0 ≤ index then index else items.length + index
  if position < 0 then
    f .null :: List.replicate (-position - 1).toNat .null ++ items
  else
    let padded := items ++ List.replicate (position.toNat + 1 - items.length) .null
    padded.modify position.toNat f

/-- The entries of a table with one value changed. A missing value is null before the change. -/
def updateEntry (name : String) (f : Document → Document) (entries : List (String × Document)) :
    List (String × Document) :=
  putEntry name (f ((entries.lookup name).getD .null)) entries

/-- Changes the value at a place. What is no table on the way to a name becomes one, and what is
no list on the way to an index becomes one. -/
def updateAt (place : Place) (f : Document → Document) (d : Document) : Document :=
  match place with
  | [] => f d
  | .field name :: rest => .table (updateEntry name (updateAt rest f) d.entries)
  | .item index :: rest => .list (updateItem index (updateAt rest f) d.items)

mutual

/-- A document over another one. A table changes the entries it names and keeps the others;
anything else takes the place of what was there. -/
def laidOver (new : Document) (old : Document) : Document :=
  match new with
  | .table entries => .table (entriesOver entries old.entries)
  | .null => .null
  | .bool b => .bool b
  | .integer n => .integer n
  | .float x => .float x
  | .text s => .text s
  | .list items => .list items

/-- Entries over those of another table. -/
def entriesOver (new : List (String × Document)) (old : List (String × Document)) :
    List (String × Document) :=
  match new with
  | [] => old
  | (name, value) :: rest => entriesOver rest (updateEntry name value.laidOver old)

end

/-- Puts a value at the place that a key names. A key that names no place is taken as it is. -/
def assign (d : Document) (key : String) (value : Document) : Document :=
  let place := (Place.ofString? key).getD [.field key]
  d.updateAt place value.laidOver

/-- Puts values at places, one after the other. -/
def assignAll (d : Document) (values : List (String × Document)) : Document :=
  values.foldl (fun d (key, value) => d.assign key value) d

end Document

end ChainIngest
