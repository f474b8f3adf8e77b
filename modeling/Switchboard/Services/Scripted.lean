import Switchboard.Services.Core

/-!
# Scripted Procedures

Handlers written as data. A script says what a procedure does in a small
vocabulary — give a value back, read an argument, fail, break down, keep a
value for later, take several steps — so a whole catalog with behaviour can be
described without writing any code, which is what testing a client or a server
asks for.

Values in scripts are templates. Where an object belongs a template has a
label, which stands either for the one instance known by that label or for a
new instance every time the script runs.

## Main definitions

* `InstanceTemplate`, `ValueTemplate`: Values with labels in place of objects.
* `Accessor`: The ways to read an argument.
* `Script`: What a handler can be told to do.
* `Script.handler`: The handler that does it.
-/

namespace Switchboard

/-- What stands for an object in a template. -/
inductive InstanceTemplate where
  /-- The one instance known by the label. -/
  | known (label : String)
  /-- A new instance with the label. -/
  | fresh (label : String)
  deriving DecidableEq, Repr

/-- The instance a template stands for at this moment. -/
def InstanceTemplate.instantiate : InstanceTemplate → StateM World Instance
  | .known label => modifyGet fun w => w.labelled label
  | .fresh label => modifyGet fun w => w.allocate (.label label)

/-- A native value with templates for its objects. -/
abbrev ValueTemplate := Datum InstanceTemplate

/-- The value a template stands for at this moment. -/
def ValueTemplate.instantiate (v : ValueTemplate) : StateM World NativeValue :=
  Datum.traverse InstanceTemplate.instantiate v

/-- The ways to read an argument, by what it has to be. -/
inductive Accessor where
  | anything
  | bool
  | int32
  | int64
  | float32
  | float64
  | string
  | bytes
  | items
  | entries
  | enum
  | labelled
  | labelledOrNull
  deriving DecidableEq, Repr

/-- Reads an argument. A collection of any kind is given back as a list, and a
    labelled instance as its label. -/
def Accessor.read (index : Nat) : Accessor → Native NativeValue
  | .anything => Native.arg index
  | .bool => return .bool (← Native.bool index)
  | .int32 => return .int32 (← Native.int32 index)
  | .int64 => return .int64 (← Native.int64 index)
  | .float32 => return .float32 (← Native.float32 index)
  | .float64 => return .float64 (← Native.float64 index)
  | .string => return .string (← Native.string index)
  | .bytes => return .bytes (← Native.bytes index)
  | .items => return .list (← Native.items index)
  | .entries => return .map (← Native.entries index)
  | .enum => return .enum (← Native.enum index)
  | .labelled => return .string (← Native.label index)
  | .labelledOrNull => return (← Native.unlessNull Native.label index).elim .null .string

/-- What a handler can be told to do. -/
inductive Script where
  /-- Finish without a value. -/
  | done
  /-- Ask to be resumed. Among steps this goes on to the next one. -/
  | again
  /-- Ask to be resumed and stay at the beginning, also among steps. -/
  | forever
  /-- Finish with the identities of the call and of its connection, which are
      64-bit words, read with a sign. -/
  | context
  /-- Finish with the number of bound arguments. -/
  | argumentCount
  /-- Finish with the number of services. -/
  | serviceCount
  /-- Finish with the counts of the server's snapshot. -/
  | counts
  | value (template : ValueTemplate)
  | get (accessor : Accessor) (index : Nat)
  | fault (text : String)
  | panic (message : Option String)
  /-- Keep the last argument, of which there has to be one, under a name. -/
  | store (slot : String)
  /-- Finish with what was kept under a name. -/
  | load (slot : String)
  /-- Do one thing per step, and the last of them from then on. -/
  | steps (scripts : List Script)

namespace Script

/-- The progress of a script that is at one of its steps. -/
def progressAt (step : Nat) : NativeValue := .list [countInt64 step]

/-- The step that progress stands for. -/
def stepOf? : NativeValue → Option Nat
  | .list [.int64 n] => some n.toInt.toNat
  | _ => none

/-- Runs a handler as if it had left no progress behind. -/
def afresh (h : Handler) : Handler :=
  ReaderT.adapt (fun inv : Invocation => { inv with progress := none }) h

mutual

/-- The handler that does what a script says. -/
def handler : Script → Handler
  | .done => return .done
  | .again => return .yield .null
  | .forever => return .yield .null
  | .context => do
    let ctx := (← read).ctx
    return .value (.tuple [.int64 (Int64.ofNat ctx.call), .int64 (Int64.ofNat ctx.connection)])
  | .argumentCount => return .value (countInt64 (← read).arguments.length)
  | .serviceCount => return .value (countInt64 (← read).services.services.length)
  | .counts => do
    let s := (← read).snapshot
    return .value (.tuple
      [countInt64 s.callsDispatched, countInt64 s.callsFailed,
        countInt64 s.continuationsResumed, countInt64 s.ticks,
        countInt64 s.liveObjects, countInt64 s.pendingContinuations])
  | .value template => return .value (← template.instantiate)
  | .get accessor index => return .value (← accessor.read index)
  | .fault text => Native.fault text
  | .panic message => Native.panic message
  | .store slot => do
    let kept ← Native.arg ((← read).arguments.length - 1)
    modify fun w => w.store slot kept
    return .done
  | .load slot => return .value ((← getThe World).load slot)
  | .steps scripts => do
    let step := (← Native.progress stepOf?).getD 0
    afresh (handlerAt step (min step (scripts.length - 1)) scripts)

/-- The handler for one entry of a list of scripts, for a call that is at the
    given step. -/
def handlerAt (step : Nat) : Nat → List Script → Handler
  | _, [] => return .done
  | 0, .again :: _ => return .yield (progressAt (step + 1))
  | 0, script :: _ => handler script
  | entry + 1, _ :: rest => handlerAt step entry rest

end

end Script

end Switchboard
