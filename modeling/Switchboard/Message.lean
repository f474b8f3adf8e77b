import Switchboard.Datum.Equality

/-!
# Requests and Responses

The envelopes that clients and the server exchange. A request is a batch of
calls addressed by service and procedure name; a response answers them one to
one and in order, each with a value, with an error, or with neither when a
procedure has nothing to return.

Arguments are positional and may be sparse. Callers who do not care about
positions append: an appended argument goes one past the highest position in
use. Positions are 32-bit words, and past the last of them the appended
argument shares it, so that the call is refused when it is bound rather than
silently sent to some other parameter.

## Main definitions

* `Argument`, `ProcedureCall`, `Request`: What a client sends.
* `ErrorKind`, `ErrorReport`, `ProcedureResult`, `Response`: What it gets back.
* `nextPosition`: Where an appended argument goes.
* `ProcedureCall.arg`, `ProcedureCall.argAt`: Building a call.
-/

namespace Switchboard

/-- A value for the parameter at a position. -/
structure Argument where
  position : UInt32
  value : Value

instance : BEq Argument := ⟨fun a b => a.position == b.position && a.value == b.value⟩

/-- The position after a given one; the last position is its own successor. -/
def positionAfter (position : UInt32) : UInt32 :=
  if position = 0xFFFFFFFF then position else position + 1

/-- The position after all positions in use, zero if there are none. -/
def nextPosition (arguments : List Argument) : UInt32 :=
  arguments.foldl (fun best a => max best (positionAfter a.position)) 0

/-- Appends a value at the next position. -/
def appendArgument (arguments : List Argument) (value : Value) : List Argument :=
  arguments ++ [⟨nextPosition arguments, value⟩]

/-- One call of a request. -/
structure ProcedureCall where
  service : String
  procedure : String
  arguments : List Argument

namespace ProcedureCall

/-- A call without arguments. -/
def bare (service procedure : String) : ProcedureCall := ⟨service, procedure, []⟩

/-- Supplies a value at the next position. -/
def arg (call : ProcedureCall) (value : Value) : ProcedureCall :=
  { call with arguments := appendArgument call.arguments value }

/-- Supplies a value at a position of its own. -/
def argAt (call : ProcedureCall) (position : UInt32) (value : Value) : ProcedureCall :=
  { call with arguments := call.arguments ++ [⟨position, value⟩] }

/-- The name a procedure is registered under: its service, a dot, its name. -/
def qualifiedName (call : ProcedureCall) : String := call.service ++ "." ++ call.procedure

end ProcedureCall

/-- A batch of calls, each answered on its own. -/
structure Request where
  calls : List ProcedureCall

/-- What went wrong with a call, in the terms a client can act on. -/
inductive ErrorKind where
  | noSuchProcedure
  | missingArgument
  | typeMismatch
  | invalidReference
  /-- The native procedure itself failed. -/
  | nativeFault
  deriving DecidableEq, Repr

/-- The name an error kind travels under. -/
def ErrorKind.wireName : ErrorKind → String
  | .noSuchProcedure => "NO_SUCH_PROCEDURE"
  | .missingArgument => "MISSING_ARGUMENT"
  | .typeMismatch => "TYPE_MISMATCH"
  | .invalidReference => "INVALID_REFERENCE"
  | .nativeFault => "NATIVE_FAULT"

/-- The error part of a result. -/
structure ErrorReport where
  kind : ErrorKind
  message : String

/-- The answer to one call. The server sends a value or an error and never
    both, and a present null value is not the same as no value. -/
structure ProcedureResult where
  value : Option Value
  error : Option ErrorReport

namespace ProcedureResult

/-- A success, with the value if the procedure has one. -/
def ok (value : Option Value) : ProcedureResult := ⟨value, none⟩

/-- A failure. -/
def err (kind : ErrorKind) (message : String) : ProcedureResult :=
  ⟨none, some ⟨kind, message⟩⟩

/-- Whether the result reports an error. -/
def isError (r : ProcedureResult) : Bool := r.error.isSome

end ProcedureResult

/-- The answers to a request, in the order of its calls. -/
structure Response where
  results : List ProcedureResult

end Switchboard
