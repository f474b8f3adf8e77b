import Switchboard.Native.Handler

/-!
# Declarations

What an operator writes down to offer a service: procedures with their
implementations, properties, classes with members of their own, enumerations.
Declarations are plain data. Nothing about them is checked here, and names may
clash or be missing; the scan that turns them into a catalog is what accepts or
refuses them.

A property stands for up to two procedures and a class for one procedure per
member. Which procedures those are is the business of the scan as well.

## Main definitions

* `ServiceDecl`: One service with all it declares.
* `ProcedureDecl`, `PropertyDecl`, `ClassDecl`, `EnumerationDecl`: Its parts.
-/

namespace Switchboard

/-- A procedure, a constructor, a method or a static, depending on where it
    stands. -/
structure ProcedureDecl where
  name : String
  parameters : List Parameter := []
  /-- Disregarded for a constructor, which returns its class. -/
  returnType : Option Ty := none
  summary : Option String := none
  blocking : Bool := false
  handler : Option Handler := none

/-- A property. It needs a getter or a setter and may have both. -/
structure PropertyDecl where
  name : String
  ty : Ty
  summary : Option String := none
  getter : Option Handler := none
  setter : Option Handler := none

/-- A class of objects. -/
structure ClassDecl where
  name : String
  summary : Option String := none
  constructor : Option ProcedureDecl := none
  methods : List ProcedureDecl := []
  properties : List PropertyDecl := []
  statics : List ProcedureDecl := []

/-- A member of an enumeration. -/
structure MemberDecl where
  name : String
  value : Int32
  summary : Option String := none

/-- An enumeration. -/
structure EnumerationDecl where
  name : String
  summary : Option String := none
  members : List MemberDecl := []

/-- A service. -/
structure ServiceDecl where
  name : String
  summary : Option String := none
  procedures : List ProcedureDecl := []
  properties : List PropertyDecl := []
  classes : List ClassDecl := []
  enumerations : List EnumerationDecl := []

end Switchboard
