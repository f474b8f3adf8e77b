import Switchboard.Message

/-!
# Calls

A call on its way through the server: who made it, which procedure it names
and which arguments it brings, and what can come of it.

A call has an identity of its own because a blocking procedure answers it over
several ticks; the identities come from one counter, so they also tell which
of two calls came first. The connection that made the call travels with it,
since what the call leaves behind — objects, a parked step — belongs to that
connection.

Failures are kept as causes, and a single function words them. The wording is
part of the interface; the causes are what the rest of the library reasons
about.

## Main definitions

* `CallContext`, `Call`: A call and who made it.
* `CallError`: Why a call failed, with `CallError.message` and
  `CallError.kind`.
* `Outcome`: What one step of a call came to.
* `Outcome.result?`: The answer a final outcome amounts to.
-/

namespace Switchboard

/-- The identity of a call, from one upward in the order of arrival. -/
abbrev CallId := Nat

/-- The identity of a client's connection, from one upward. -/
abbrev ConnectionId := Nat

/-- What travels with a call through every step of it. -/
structure CallContext where
  call : CallId
  connection : ConnectionId
  deriving DecidableEq, Repr

/-- A call with the qualified name of its procedure. -/
structure Call where
  ctx : CallContext
  procedure : String
  arguments : List Argument

namespace Call

/-- A call without arguments. -/
def bare (ctx : CallContext) (procedure : String) : Call := ⟨ctx, procedure, []⟩

/-- Supplies a value at the next position. -/
def arg (call : Call) (value : Value) : Call :=
  { call with arguments := appendArgument call.arguments value }

/-- Supplies a value at a position of its own. -/
def argAt (call : Call) (position : UInt32) (value : Value) : Call :=
  { call with arguments := call.arguments ++ [⟨position, value⟩] }

/-- The call that a client's request asks for. -/
def ofWire (ctx : CallContext) (call : ProcedureCall) : Call :=
  ⟨ctx, call.qualifiedName, call.arguments⟩

end Call

/-- Why a call failed. No failure disturbs the server or any other call. -/
inductive CallError where
  | noSuchProcedure (name : String)
  | missingArgument (procedure parameter : String)
  | typeMismatch (context expected actual : String)
  | invalidReference (id : ObjectId)
  /-- The procedure failed on its own account. -/
  | nativeFault (text : String)
  deriving DecidableEq, Repr

namespace CallError

/-- What a client is told. A native fault is passed on word for word. -/
def message : CallError → String
  | .noSuchProcedure name => "procedure " ++ name ++ " does not exist"
  | .missingArgument procedure parameter =>
    procedure ++ ": no value supplied for parameter '" ++ parameter ++ "'"
  | .typeMismatch context expected actual =>
    context ++ ": expected " ++ expected ++ ", got " ++ actual
  | .invalidReference id => "object reference " ++ id.repr ++ " is not valid"
  | .nativeFault text => text

/-- The kind a client sees. -/
def kind : CallError → ErrorKind
  | .noSuchProcedure _ => .noSuchProcedure
  | .missingArgument .. => .missingArgument
  | .typeMismatch .. => .typeMismatch
  | .invalidReference _ => .invalidReference
  | .nativeFault _ => .nativeFault

end CallError

/-- What one step of a call came to. -/
inductive Outcome where
  /-- The procedure finished, with a value if it has a return type. -/
  | completed (value : Option Value)
  /-- The procedure wants to be resumed on a later tick. -/
  | continuing (call : CallId)
  | failed (error : CallError)

namespace Outcome

/-- Whether nothing more will come of the call. -/
def isFinal : Outcome → Bool
  | .continuing _ => false
  | _ => true

/-- The word for an outcome in reports. -/
def label : Outcome → String
  | .completed _ => "completed"
  | .continuing _ => "continuing"
  | .failed _ => "failed"

/-- The answer that a final outcome amounts to. -/
def result? : Outcome → Option ProcedureResult
  | .completed value => some (.ok value)
  | .continuing _ => none
  | .failed error => some (.err error.kind error.message)

end Outcome

end Switchboard
