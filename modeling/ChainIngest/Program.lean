/-!
Programs that ask their surroundings. A program is the tree of its queries: what it does next is a
function of the answer. The same program can be run against a store in memory, against a script,
or under a semantics where each query may fail, and its meaning is a matter of the surroundings.
-/

namespace ChainIngest

/-- What programs can ask for, and the type of each answer. -/
structure Interface where
  Query : Type
  Answer : Query → Type

/-- A program that answers with an `α` after finitely many queries. -/
inductive Program (I : Interface) (α : Type) where
  | pure (value : α)
  | query (q : I.Query) (next : I.Answer q → Program I α)

namespace Program

variable {I : Interface} {α β γ : Type}

/-- The program that asks `q` and answers with what it is told. -/
def ask (q : I.Query) : Program I (I.Answer q) := .query q .pure

protected def bind : Program I α → (α → Program I β) → Program I β
  | .pure value, k => k value
  | .query q next, k => .query q fun answer => (next answer).bind k

instance : Monad (Program I) where
  pure := .pure
  bind := Program.bind

@[simp] theorem pure_bind (value : α) (k : α → Program I β) :
    (Program.pure value).bind k = k value := rfl

@[simp] theorem query_bind (q : I.Query) (next : I.Answer q → Program I α)
    (k : α → Program I β) :
    (Program.query q next).bind k = .query q fun answer => (next answer).bind k := rfl

@[simp] theorem bind_pure (p : Program I α) : p.bind .pure = p := by
  induction p with
  | pure => rfl
  | query q next ih => simp [ih]

theorem bind_assoc (p : Program I α) (k : α → Program I β) (l : β → Program I γ) :
    (p.bind k).bind l = p.bind fun value => (k value).bind l := by
  induction p with
  | pure => rfl
  | query q next ih => simp [ih]

/-- Runs a program where each query is answered by `handle`. -/
def interpret {m : Type → Type} [Monad m] (handle : (q : I.Query) → m (I.Answer q)) :
    Program I α → m α
  | .pure value => Pure.pure value
  | .query q next => do
    let answer ← handle q
    (next answer).interpret handle

instance : LawfulMonad (Program I) :=
  LawfulMonad.mk' _ Program.bind_pure (fun _ _ => rfl) Program.bind_assoc

end Program

end ChainIngest
