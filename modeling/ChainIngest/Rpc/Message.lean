import ChainIngest.Document.Value

/-!
Messages between a client and a node: a request has a method and parameters, and is answered with a
result or an error.
-/

namespace ChainIngest.Rpc

structure Request where
  method : String
  /-- Some methods are asked for without parameters. -/
  params : Option Document

/-- Why a request has no result. -/
inductive Failure where
  /-- Nobody could be connected to. -/
  | refused
  /-- The node answers with an error of its own. -/
  | rejected (code : Int) (message : String)
  /-- What came back is no answer. -/
  | unreadable
  | timedOut
  deriving DecidableEq, Repr

abbrev Reply := Except Failure Document

end ChainIngest.Rpc
