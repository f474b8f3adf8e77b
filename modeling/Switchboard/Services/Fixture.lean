import Switchboard.Decimal.Integer
import Switchboard.Scan

/-!
# The Fixture Services

Three services that exercise every form of declaration: plain procedures,
properties with one accessor or both, a class with a constructor, methods,
properties and a static, an enumeration, defaults, collections, procedures
that work over several ticks, procedures that fail, and a class that another
service refers to. Clients are developed against them.

Their procedures are written the way any operator would write them, against
the public form of handlers, and keep what they remember in the fixture part
of the shared state.

The two procedures that block count down by one per tick. Their arithmetic is
checked: where a count or a sum leaves the 32-bit range the procedure breaks
down, and which of the two did is told in the message.

## Main definitions

* `increment`: One more than every integer of a value.
* `Fixture.countDown`, `Fixture.countDownQuietly`: The procedures that block.
* `fixtureServices`: The declarations.
-/

namespace Switchboard

/-! ## Incrementing -/

mutual

/-- The value with one added to every integer in it, keys of maps apart.
    Integers wrap around. Anything that is neither an integer nor a collection
    is a fault, reported by its shape. -/
def increment : NativeValue → Except String NativeValue
  | .int32 n => .ok (.int32 (n + 1))
  | .int64 n => .ok (.int64 (n + 1))
  | .list items => do return .list (← incrementAll items)
  | .set items => do return .set (← incrementAll items)
  | .tuple items => do return .tuple (← incrementAll items)
  | .map entries => do return .map (← incrementEntries entries)
  | v => .error v.kind

/-- Several values, each incremented. -/
def incrementAll : List NativeValue → Except String (List NativeValue)
  | [] => .ok []
  | v :: vs => do
    let first ← increment v
    return first :: (← incrementAll vs)

/-- The entries of a map, each with its value incremented. -/
def incrementEntries :
    List (NativeValue × NativeValue) → Except String (List (NativeValue × NativeValue))
  | [] => .ok []
  | (k, v) :: rest => do
    let first ← increment v
    return (k, first) :: (← incrementEntries rest)

end

namespace Fixture

/-- The name of the first service. -/
def serviceName : String := "TestService"

/-- Objects of the fixture's class. -/
def objectTy : Ty := .instanceOf serviceName "TestClass"

/-- Members of the fixture's enumeration. -/
def enumTy : Ty := .enumeration serviceName "TestEnum"

/-! ## Parts that handlers share -/

/-- Finishes with a text. -/
def textStep (s : String) : Native Step := return .value (.string s)

/-- Finishes with an object, or with null if there is none. -/
def objectStep (object : Option Instance) : Native Step :=
  return .value (object.elim .null .object)

/-- What the fixture services remember. -/
def state : Native FixtureState := return (← get).fixture

/-- Changes what the fixture services remember, and finishes without a value. -/
def update (change : FixtureState → FixtureState) : Native Step := do
  modify fun w => { w with fixture := change w.fixture }
  return .done

/-- An argument that is an object of the fixture's class. -/
def object (index : Nat) : Native Instance := return (← Native.fixtureObject index).1

/-- The text that an object of the fixture's class was made with. -/
def valueOf (index : Nat) : Native String := return (← Native.fixtureObject index).2

/-- A new object made with the text of an argument. -/
def create (index : Nat) : Native Instance := do
  Native.allocate (.fixture (← Native.string index))

/-! ## Plain procedures -/

/-- Writes a truth value with a capital. -/
def boolText : Handler := do
  textStep (if ← Native.bool 0 then "True" else "False")

/-- Reads an integer. -/
def parseInt : Handler := do
  match readInt32 (← Native.string 0) with
  | .ok n => return .value (.int32 n)
  | .error fault => Native.fault fault.message

/-- The two hexadecimal digits of a byte. -/
def byteText (b : UInt8) : String :=
  let hex (n : Nat) := (Nat.digitChar n).toString
  hex (b.toNat / 16) ++ hex (b.toNat % 16)

/-- Writes bytes as hexadecimal digits. -/
def bytesText : Handler := do
  textStep (String.join ((← Native.bytes 0).map byteText))

/-- Adds numbers of three types in double precision, from left to right. -/
def addMultiple : Handler := do
  let x := (← Native.float32 0).widen
  let y := Binary64.ofInt (← Native.int32 1).toInt
  let z := Binary64.ofInt (← Native.int64 2).toInt
  textStep ((x.add y).add z).text

/-- Gives back the object it is given, if any. -/
def echoObject : Handler := do
  objectStep (← Native.unlessNull object 0)

/-- Writes three texts one after the other. -/
def joinTexts : Handler := do
  textStep ((← Native.string 0) ++ (← Native.string 1) ++ (← Native.string 2))

/-- Increments a collection. -/
def incrementArgument : Handler := do
  match increment (← Native.arg 0) with
  | .ok v => return .value v
  | .error kind => Native.fault ("cannot increment " ++ kind)

/-- Adds a new object to the end of a list. -/
def appendObject : Handler := do
  let items ← Native.items 0
  let added ← create 1
  return .value (.list (items ++ [.object added]))

/-- Gives back the member of an enumeration it is given. -/
def echoEnum : Handler := return .value (.enum (← Native.enum 0))

/-! ## Procedures that block -/

/-- Breaks down unless the result of an operation fits 32 bits. -/
def checked (operation : String) (n : Int) : Native Int32 :=
  if -2147483648 ≤ n ∧ n ≤ 2147483647 then return Int32.ofInt n
  else Native.panic (some ("attempt to " ++ operation ++ " with overflow"))

/-- Adds the numbers from the first argument down to one to the second
    argument, one number per step. The next number is computed before the next
    sum. -/
def countDown : Handler := do
  let earlier ← Native.progress fun
    | .tuple [.int32 n, .int32 sum] => some (n, sum)
    | _ => none
  let (n, sum) ← match earlier with
    | some state => pure state
    | none => do pure (← Native.int32 0, ← Native.int32 1)
  if n = 0 then return .value (.int32 sum)
  else
    let next ← checked "subtract" (n.toInt - 1)
    let total ← checked "add" (sum.toInt + n.toInt)
    return .yield (.tuple [.int32 next, .int32 total])

/-- Counts down to zero, one number per step. -/
def countDownQuietly : Handler := do
  let earlier ← Native.progress fun
    | .int32 n => some n
    | _ => none
  let n ← match earlier with
    | some n => pure n
    | none => Native.int32 0
  if n = 0 then return .done
  else return .yield (.int32 (← checked "subtract" (n.toInt - 1)))

/-! ## The class -/

/-- The class of the first service. -/
def testClass : ClassDecl where
  name := "TestClass"
  constructor := some
    { name := "new"
      parameters := [⟨"value", .string, none⟩]
      handler := some do objectStep (some (← create 0)) }
  methods :=
    [{ name := "GetValue"
       returnType := some .string
       handler := some do textStep ("value=" ++ (← valueOf 0)) },
     { name := "FloatToString"
       parameters := [⟨"x", .float32, none⟩]
       returnType := some .string
       handler := some do
         let value ← valueOf 0
         textStep (value ++ (← Native.float32 1).text) },
     { name := "ObjectToString"
       parameters := [⟨"other", .optional objectTy, none⟩]
       returnType := some .string
       handler := some do
         let value ← valueOf 0
         textStep (value ++ (← Native.unlessNull valueOf 1).getD "") },
     { name := "IntToString"
       parameters := [⟨"x", .int32, some (.int32 42)⟩]
       returnType := some .string
       handler := some do
         let value ← valueOf 0
         textStep (value ++ toString (← Native.int32 1)) }]
  properties :=
    [{ name := "IntProperty"
       ty := .int32
       getter := some do
         let this ← object 0
         return .value (.int32 (((← state).intProperties.get? this.address).getD 0))
       setter := some do
         let this ← object 0
         let n ← Native.int32 1
         update fun s => { s with intProperties := s.intProperties.insert this.address n } },
     { name := "ObjectProperty"
       ty := .optional objectTy
       getter := some do
         let this ← object 0
         objectStep ((← state).objectProperties.get? this.address)
       setter := some do
         let this ← object 0
         let other ← Native.unlessNull object 1
         update fun s =>
           { s with
             objectProperties := match other with
               | some other => s.objectProperties.insert this.address other
               | none => s.objectProperties.erase this.address } }]
  statics :=
    [{ name := "StaticMethod"
       parameters :=
         [⟨"a", .string, some (.string "")⟩, ⟨"b", .string, some (.string "")⟩]
       returnType := some .string
       handler := some do
         textStep ("jeb" ++ (← Native.string 0) ++ (← Native.string 1)) }]

/-! ## The services -/

/-- The enumeration of the first service. -/
def testEnum : EnumerationDecl where
  name := "TestEnum"
  summary := some "Documentation string for TestEnum."
  members :=
    [{ name := "ValueA", value := 0, summary := some "Documented enum field" },
     { name := "ValueB", value := 7 },
     { name := "ValueC", value := -2 }]

/-- A procedure that writes its only argument as text. -/
def textProcedure (name : String) (ty : Ty) (handler : Handler) : ProcedureDecl where
  name := name
  parameters := [⟨"value", ty, none⟩]
  returnType := some .string
  handler := some handler

/-- A procedure that increments its only argument. -/
def incrementProcedure (name parameter : String) (ty : Ty) : ProcedureDecl where
  name := name
  parameters := [⟨parameter, ty, none⟩]
  returnType := some ty
  handler := some incrementArgument

/-- A procedure that always fails with a message of its own. -/
def failingProcedure (name message : String) : ProcedureDecl where
  name := name
  returnType := some .int32
  handler := some (Native.fault message)

/-- The first service. -/
def firstService : ServiceDecl where
  name := serviceName
  summary := some "Test service documentation."
  procedures :=
    [{ name := "ProcedureNoArgsNoReturn"
       summary := some "Procedure with no return arguments."
       handler := some (return .done) },
     textProcedure "FloatToString" .float32 do textStep (← Native.float32 0).text,
     textProcedure "DoubleToString" .float64 do textStep (← Native.float64 0).text,
     textProcedure "Int32ToString" .int32 do textStep (toString (← Native.int32 0)),
     textProcedure "Int64ToString" .int64 do textStep (toString (← Native.int64 0)),
     textProcedure "BoolToString" .bool boolText,
     { name := "StringToInt32"
       parameters := [⟨"value", .string, none⟩]
       returnType := some .int32
       handler := some parseInt },
     textProcedure "BytesToHexString" .bytes bytesText,
     { name := "AddMultipleValues"
       parameters := [⟨"x", .float32, none⟩, ⟨"y", .int32, none⟩, ⟨"z", .int64, none⟩]
       returnType := some .string
       handler := some addMultiple },
     { name := "CreateTestObject"
       parameters := [⟨"value", .string, none⟩]
       returnType := some objectTy
       handler := some do objectStep (some (← create 0)) },
     { name := "EchoTestObject"
       parameters := [⟨"obj", .optional objectTy, none⟩]
       returnType := some objectTy
       handler := some echoObject },
     { name := "OptionalArguments"
       parameters :=
         [⟨"x", .string, none⟩, ⟨"y", .string, some (.string "foo")⟩,
           ⟨"z", .string, some (.string "bar")⟩, ⟨"obj", objectTy, some .null⟩]
       returnType := some .string
       handler := some joinTexts },
     { name := "BlockingProcedure"
       parameters := [⟨"n", .int32, none⟩, ⟨"sum", .int32, some (.int32 0)⟩]
       returnType := some .int32
       blocking := true
       handler := some countDown },
     { name := "BlockingProcedureNoReturn"
       parameters := [⟨"n", .int32, none⟩]
       blocking := true
       handler := some countDownQuietly },
     { name := "EnumReturn"
       returnType := some enumTy
       handler := some (return .value (.enum 7)) },
     { name := "EnumEcho"
       parameters := [⟨"x", enumTy, none⟩]
       returnType := some enumTy
       handler := some echoEnum },
     { name := "EnumDefaultArg"
       parameters := [⟨"x", enumTy, some (.enum (-2))⟩]
       returnType := some enumTy
       handler := some echoEnum },
     incrementProcedure "IncrementList" "l" (.list .int32),
     incrementProcedure "IncrementDictionary" "d" (.map .string .int32),
     incrementProcedure "IncrementSet" "h" (.set .int32),
     incrementProcedure "IncrementTuple" "t" (.tuple [.int32, .int64]),
     incrementProcedure "IncrementNestedCollection" "d" (.map .string (.list .int32)),
     { name := "AddToObjectList"
       parameters := [⟨"l", .list objectTy, none⟩, ⟨"value", .string, none⟩]
       returnType := some (.list objectTy)
       handler := some appendObject },
     failingProcedure "ThrowArgumentException" "Invalid argument",
     failingProcedure "ThrowInvalidOperationException" "Invalid operation"]
  properties :=
    [{ name := "StringProperty"
       ty := .string
       getter := some do textStep (← state).stringProperty
       setter := some do
         let text ← Native.string 0
         update fun s => { s with stringProperty := text } },
     { name := "StringPropertyPrivateGet"
       ty := .string
       setter := some do
         let text ← Native.string 0
         update fun s => { s with privateGetProperty := text } },
     { name := "StringPropertyPrivateSet"
       ty := .string
       getter := some do textStep (← state).privateGetProperty },
     { name := "ObjectProperty"
       ty := .optional objectTy
       getter := some do objectStep (← state).objectProperty
       setter := some do
         let other ← Native.unlessNull object 0
         update fun s => { s with objectProperty := other } }]
  classes := [testClass]
  enumerations := [testEnum]

/-- The second service, which refers to the first one's class. -/
def secondService : ServiceDecl where
  name := "TestService2"
  summary := some "TestService2 documentation."
  procedures :=
    [{ name := "ClassTypeFromOtherServiceAsParameter"
       summary := some "TestService2 procedure documentation."
       parameters := [⟨"obj", objectTy, none⟩]
       returnType := some .int64
       handler := some do
         return .value (countInt64 (← valueOf 0).utf8ByteSize) },
     { name := "ClassTypeFromOtherServiceAsReturn"
       parameters := [⟨"value", .string, none⟩]
       returnType := some objectTy
       handler := some do objectStep (some (← create 0)) }]

/-- The third service, whose class shares its name with the first one's. -/
def thirdService : ServiceDecl where
  name := "TestService3Name"
  procedures :=
    [{ name := "Greet"
       parameters := [⟨"name", .string, none⟩]
       returnType := some .string
       handler := some do textStep ("hello " ++ (← Native.string 0)) }]
  classes := [{ name := "TestClass" }]

end Fixture

/-- The fixture services in the order they are offered in. -/
def fixtureServices : List ServiceDecl :=
  [Fixture.firstService, Fixture.secondService, Fixture.thirdService]

end Switchboard
