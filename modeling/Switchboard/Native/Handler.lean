import Switchboard.Call
import Switchboard.Catalog
import Switchboard.Native.World
import Switchboard.Status

/-!
# Native Procedures

The form in which a procedure is implemented, and what its implementation can
see.

A handler runs one step of a call. It is given the bound arguments, the
progress its previous step left behind, and a view of the server; it may
change the state procedures share; and it comes to a step — a finished value,
or progress to be resumed with — unless it is interrupted. An interruption is
an error it reports or a panic, and does not undo what the handler had already
done to the shared state. Handlers never change the server: they do not see
its tables, only a snapshot.

Progress is a native value. A handler recognises its own by its shape, and
progress of another shape counts as none.

## Main definitions

* `Invocation`: What a handler can see.
* `Step`, `Interrupt`: What a run of a handler comes to.
* `Native`, `Handler`: Computations of handlers.
* `Handler.react`: Running one step.
* `Native.int32`, `Native.string`, …: Typed access to the arguments.
-/

namespace Switchboard

/-- What a handler can see while it runs. -/
structure Invocation where
  ctx : CallContext
  /-- The qualified name of the procedure. -/
  procedure : String
  services : Services
  snapshot : Snapshot
  /-- The arguments, one for each parameter. -/
  arguments : List NativeValue
  /-- What the previous step left behind; `none` on the first step. -/
  progress : Option NativeValue

/-- What a handler did in one run. -/
inductive Step where
  /-- It finished, with a value if it has one. -/
  | complete (value : Option NativeValue)
  /-- It did a bounded piece of work and wants to be resumed. -/
  | yield (progress : NativeValue)
  deriving Inhabited

namespace Step

/-- Finishing without a value. -/
def done : Step := .complete none

/-- Finishing with a value. -/
def value (v : NativeValue) : Step := .complete (some v)

/-- The diagnostic form of a step. Progress is not shown. -/
def text : Step → String
  | .complete none => "Complete(None)"
  | .complete (some v) => "Complete(Some(" ++ v.text ++ "))"
  | .yield _ => "Continue(..)"

end Step

/-- What cuts a run of a handler short. -/
inductive Interrupt where
  /-- The handler reports an error. -/
  | error (e : CallError)
  /-- The handler breaks down, possibly with a message. -/
  | panic (message : Option String)
  deriving DecidableEq, Repr, Inhabited

/-- What a client is told of a breakdown without message. -/
def wordlessPanic : String := "native procedure panicked"

/-- The failure that an interruption amounts to. -/
def Interrupt.toError : Interrupt → CallError
  | .error e => e
  | .panic message => .nativeFault (message.getD wordlessPanic)

/-- Computations of handlers: they see an invocation, may be interrupted, and
    change the shared state for good. -/
abbrev Native := ReaderT Invocation (ExceptT Interrupt (StateM World))

/-- The implementation of a procedure. -/
abbrev Handler := Native Step

/-- Runs one step of a handler. -/
def Handler.react (h : Handler) (inv : Invocation) (w : World) : Except Interrupt Step × World :=
  (h.run inv).run.run w

namespace Native

/-- Fails with an error. -/
def fail {α : Type} (e : CallError) : Native α := throw (.error e)

/-- Fails with a message of the procedure's own. -/
def fault {α : Type} (text : String) : Native α := fail (.nativeFault text)

/-- Breaks down. -/
def panic {α : Type} (message : Option String) : Native α := throw (.panic message)

/-- Makes a new instance. -/
def allocate (payload : Payload) : Native Instance := modifyGet fun w => w.allocate payload

/-- The words that say which argument a mismatch is about. -/
def argumentContext (procedure : String) (index : Nat) : String :=
  procedure ++ " argument " ++ index.repr

/-- An argument of any shape. -/
def arg (index : Nat) : Native NativeValue := do
  let inv ← read
  match inv.arguments[index]? with
  | some v => return v
  | none =>
    fail (.typeMismatch (argumentContext inv.procedure index) "an argument" "nothing")

/-- Fails because an argument is not what was wanted. -/
def unexpected {α : Type} (index : Nat) (expected : String) (v : NativeValue) : Native α := do
  fail (.typeMismatch (argumentContext (← read).procedure index) expected v.kind)

/-- An argument that a partial function has to accept. -/
def argAs {α : Type} (index : Nat) (expected : String) (accept : NativeValue → Option α) :
    Native α := do
  let v ← arg index
  match accept v with
  | some a => return a
  | none => unexpected index expected v

/-- A truth value. -/
def bool (index : Nat) : Native Bool := argAs index "Bool" fun
  | .bool b => some b
  | _ => none

/-- A 32-bit integer. -/
def int32 (index : Nat) : Native Int32 := argAs index "Int32" fun
  | .int32 n => some n
  | _ => none

/-- A 64-bit integer. -/
def int64 (index : Nat) : Native Int64 := argAs index "Int64" fun
  | .int64 n => some n
  | _ => none

/-- A single-precision number. -/
def float32 (index : Nat) : Native Binary32 := argAs index "Float32" fun
  | .float32 x => some x
  | _ => none

/-- A double-precision number. -/
def float64 (index : Nat) : Native Binary64 := argAs index "Float64" fun
  | .float64 x => some x
  | _ => none

/-- A text. -/
def string (index : Nat) : Native String := argAs index "String" fun
  | .string s => some s
  | _ => none

/-- Bytes. -/
def bytes (index : Nat) : Native (List UInt8) := argAs index "Bytes" fun
  | .bytes bs => some bs
  | _ => none

/-- The items of a list, a set or a tuple. -/
def items (index : Nat) : Native (List NativeValue) := argAs index "a collection" fun
  | .list vs => some vs
  | .set vs => some vs
  | .tuple vs => some vs
  | _ => none

/-- The entries of a map. -/
def entries (index : Nat) : Native (List (NativeValue × NativeValue)) := argAs index "Map" fun
  | .map es => some es
  | _ => none

/-- The integer of a member of an enumeration. -/
def enum (index : Nat) : Native Int32 := argAs index "Enumeration" fun
  | .enum n => some n
  | _ => none

/-- An instance of the fixture's class, with its value. -/
def fixtureObject (index : Nat) : Native (Instance × String) := argAs index fixtureTypeName fun
  | .object ⟨address, .fixture value⟩ => some (⟨address, .fixture value⟩, value)
  | _ => none

/-- The label of a labelled instance. -/
def label (index : Nat) : Native String := argAs index labelTypeName fun
  | .object ⟨_, .label text⟩ => some text
  | _ => none

/-- Reads an argument unless it is null. -/
def unlessNull {α : Type} (read : Nat → Native α) (index : Nat) : Native (Option α) := do
  match ← arg index with
  | .null => return none
  | _ => return some (← read index)

/-- The progress of the previous step, if it has the shape asked for. -/
def progress {α : Type} (accept : NativeValue → Option α) : Native (Option α) := do
  return (← read).progress.bind accept

end Native

end Switchboard
