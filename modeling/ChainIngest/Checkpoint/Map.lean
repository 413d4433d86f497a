/-!
Checkpoints: a map from keys to texts in which a key, once there, stays. Reading a key that is not
there creates it.
-/

namespace ChainIngest

/-- Checkpoints in the order of their creation. -/
structure Checkpoints where
  entries : List (String × String)
  deriving DecidableEq, Repr

namespace Checkpoints

def empty : Checkpoints := ⟨[]⟩

def get? (c : Checkpoints) (key : String) : Option String := c.entries.lookup key

/-- The entries with one value replaced, or with a new entry at the end. -/
def putEntry (key value : String) : List (String × String) → List (String × String)
  | [] => [(key, value)]
  | (k, v) :: rest => if k = key then (k, value) :: rest else (k, v) :: putEntry key value rest

def put (c : Checkpoints) (key value : String) : Checkpoints := ⟨putEntry key value c.entries⟩

/-- The value of a key, and the map in which the key exists: with its value if it had one, with
the default if not. -/
def getOrCreate (c : Checkpoints) (key default : String) : String × Checkpoints :=
  match c.get? key with
  | some value => (value, c)
  | none => (default, c.put key default)

theorem lookup_putEntry (key value k : String) (entries : List (String × String)) :
    (putEntry key value entries).lookup k = if k = key then some value else entries.lookup k := by
  fun_induction putEntry key value entries with
  | case1 => by_cases h : k = key <;> grind
  | case2 => grind
  | case3 => grind

@[simp] theorem get?_put (c : Checkpoints) (key value k : String) :
    (c.put key value).get? k = if k = key then some value else c.get? k :=
  lookup_putEntry key value k c.entries

end Checkpoints

end ChainIngest
