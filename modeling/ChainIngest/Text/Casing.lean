import ChainIngest.Text.Casing.Table

/-!
Upper and lower case of texts, for all of Unicode. Letters map one by one, some to several
characters; the one rule that looks at its neighbours is the capital sigma, which has a form of
its own at the end of a word.
-/

namespace ChainIngest.Text

namespace Casing

/-- The image of a code point under a table of runs. -/
def Run.image? (r : Run) (code : Nat) : Option Nat :=
  if r.first ≤ code ∧ code ≤ r.last ∧ (code - r.first) % r.step = 0 then
    some ((code : Int) + r.shift).toNat
  else none

/-- The characters that a letter becomes: an expansion, else a run, else the letter itself. -/
def mapChar (expansions : List (Nat × List Nat)) (runs : List Run) (c : Char) : List Char :=
  match expansions.lookup c.toNat with
  | some codes => codes.map Char.ofNat
  | none =>
    match runs.findSome? (·.image? c.toNat) with
    | some code => [Char.ofNat code]
    | none => [c]

def inRanges (ranges : List (Nat × Nat)) (c : Char) : Bool :=
  ranges.any fun (first, last) => first ≤ c.toNat && c.toNat ≤ last

def isCased (c : Char) : Bool := inRanges casedRanges c

def isIgnorable (c : Char) : Bool := inRanges ignorableRanges c

/-- Whether the first character that case rules do not look through is a cased letter. -/
def reachesCased (cs : List Char) : Bool :=
  match cs.dropWhile isIgnorable with
  | c :: _ => isCased c
  | [] => false

/-- Lower case of a text whose part before `rest` is `before`, in reverse. A capital sigma is
final when a cased letter stands before it and none after it. -/
def lowerFrom (before : List Char) : List Char → List Char
  | [] => []
  | c :: rest =>
    let image :=
      if c = 'Σ' then
        if reachesCased before && !reachesCased rest then ['ς'] else ['σ']
      else if c.toNat < 0x80 then [c.toLower]
      else mapChar lowerExpansions lowerRuns c
    image ++ lowerFrom (c :: before) rest

/-- The upper case of one character. -/
def upperChar (c : Char) : List Char :=
  if c.toNat < 0x80 then [c.toUpper] else mapChar upperExpansions upperRuns c

end Casing

/-- The text in lower case. -/
def lowercase (s : String) : String := String.ofList (Casing.lowerFrom [] s.toList)

/-- The text in upper case. -/
def uppercase (s : String) : String := String.ofList (s.toList.flatMap Casing.upperChar)

end ChainIngest.Text
