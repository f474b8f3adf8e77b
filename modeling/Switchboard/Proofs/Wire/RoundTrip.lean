import Switchboard.Proofs.Dispatcher.Turn
import Switchboard.Proofs.Scan.CoreEntries
import Switchboard.Proofs.Wire.Catalog
import Switchboard.Proofs.Wire.Messages

/-!
# There and Back

Sending a message as MsgPack and reading it again changes nothing: not the
shape of a value, not the width of a number, not the bits of a float, not the
order of a collection, and not whether something is there that may be missing.
All of that is one equation. A message is its own tree, the tree is written
item by item, and each of the two steps can be undone.

`Sendable` says for which messages. It asks for nothing that depends on the
kind of message: numbers and lengths have the sizes that the format provides
for, and the message is nested no deeper than a reader is willing to follow.

The catalog is the one message that clients receive as a value inside another.
`Core.GetServices` writes it and returns the bytes, so the equation has to be
carried through a dispatch: the name leads to the core service's handler in
every server that offers it, the handler is given the services that were
scanned, and bytes are returned as they are.

## Main definitions

* `Sendable`: Messages within the limits of the format.

## Theorems

* `Sendable.ofMsgPack?_toMsgPack`: A message leads back from its bytes.
* `dispatch_getServices`: What a call for the catalog comes to.
* `read_what_was_sent`: The kinds of message, and the catalog.
-/

namespace Switchboard

open Wire

/-- A message that can be sent as MsgPack. -/
structure Sendable {α : Type} [Serial α] [Layered α] (a : α) : Prop where
  /-- The numbers in it have at most 64 bits. -/
  words : (toNode a).Words
  /-- Its texts, bytes, arrays and objects have lengths of at most 32 bits. -/
  fits : MsgPack.Fits (toNode a)
  /-- It is nested no deeper than a reader follows. -/
  shallow : levels MsgPack.nesting.countsChoices a ≤ MsgPack.nesting.room

/-- The limits can be checked before sending. -/
instance {α : Type} [Serial α] [Layered α] (a : α) : Decidable (Sendable a) :=
  decidable_of_iff ((toNode a).Words ∧ MsgPack.Fits (toNode a) ∧
      levels MsgPack.nesting.countsChoices a ≤ MsgPack.nesting.room)
    ⟨fun h => ⟨h.1, h.2.1, h.2.2⟩, fun h => ⟨h.words, h.fits, h.shallow⟩⟩

/-- A message is read from its bytes as itself. -/
theorem Sendable.ofMsgPack?_toMsgPack {α : Type} [Serial α] [Layered α] [LawfulSerial α] {a : α}
    (h : Sendable a) : ofMsgPack? (toMsgPack a) = some a := by
  rw [ofMsgPack?, toMsgPack, MsgPack.read?_bytes (regular_toNode a) h.words h.fits]
  exact ofNode?_toNode MsgPack.nesting a h.words h.shallow

/-! ## The catalog that a server gives out -/

theorem get_getServices {decls : List ServiceDecl} {catalog : Catalog}
    (h : scanWithCore decls = .ok catalog) :
    ∃ entry, catalog.directory.get "Core.GetServices" = .ok entry ∧
      entry.handler = Core.services ∧ entry.procedure.parameters = [] ∧
      entry.procedure.returnType = some .bytes := by
  have hfind := @find?_core decls catalog h "GetServices" (by decide)
  change catalog.directory.find? "Core.GetServices" = _ at hfind
  rw [Directory.get, hfind]
  exact ⟨_, rfl, rfl, rfl, rfl⟩

/-- A procedure without parameters takes no arguments. -/
theorem bindArguments_excess (services : Services) (objects : ObjectTable) (procedure : String)
    {arguments : List Argument} (h : arguments ≠ []) :
    ∃ e, bindArguments services objects procedure [] arguments = .error e := by
  cases arguments with
  | nil => exact absurd rfl h
  | cons a rest =>
      rw [bindArguments, List.foldlM_cons, supply]
      simp only [List.length_nil, Nat.zero_le, if_true]
      exact ⟨_, rfl⟩

/-- A turn of `Core.GetServices` writes the catalog of its server. -/
theorem step_getServices {d : Dispatcher} {p : Turn}
    (hhandler : p.descriptor.handler = Core.services)
    (hreturn : p.descriptor.procedure.returnType = some .bytes) :
    (d.step p).1 = .completed (some (.bytes (toMsgPack d.catalog.services))) := by
  have hresult : (d.handled p).result =
      .ok (.complete (some (.bytes (toMsgPack d.catalog.services)))) := by
    rw [HandlerRun.result, Dispatcher.handled, hhandler]
    rfl
  have hwrite : (Dispatcher.writeReturn d.catalog.services p
      (some (.bytes (toMsgPack d.catalog.services)))).run.run d.objects =
        (.ok (some (.bytes (toMsgPack d.catalog.services))), d.objects) := by
    unfold Dispatcher.writeReturn
    simp only [hreturn]
    rfl
  rcases d.step_concludes p with ⟨next, objects', hconcludes, _⟩
  rw [hresult] at hconcludes
  generalize (d.step p).1 = outcome at hconcludes
  cases hconcludes with
  | completed hw =>
      rw [hwrite, Prod.mk.injEq, Except.ok.injEq] at hw
      rw [hw.1]
  | unwritable hw =>
      rw [hwrite, Prod.mk.injEq] at hw
      exact absurd hw.1 (by simp only [reduceCtorEq, not_false_eq_true])

theorem dispatch_getServices {d : Dispatcher} {decls : List ServiceDecl}
    (h : scanWithCore decls = .ok d.catalog) {call : Call}
    (hname : call.procedure = "Core.GetServices") :
    (call.arguments = [] →
      (d.dispatch call).1 = .completed (some (.bytes (toMsgPack d.catalog.services)))) ∧
    (call.arguments ≠ [] → ∃ e, (d.dispatch call).1 = .failed e) := by
  rcases get_getServices h with ⟨entry, hget, hhandler, hparameters, hreturn⟩
  have hprepare : d.countDispatch.prepare call =
      (bindArguments d.catalog.services d.objects entry.qualifiedName [] call.arguments).bind
        fun arguments => .ok { descriptor := entry, ctx := call.ctx, arguments } := by
    rw [Dispatcher.prepare, Dispatcher.countDispatch, hname, hget, ← hparameters]
    rfl
  constructor
  · intro hnone
    rw [hnone] at hprepare
    rw [Dispatcher.dispatch, hprepare]
    exact step_getServices hhandler hreturn
  · intro hsome
    rcases bindArguments_excess d.catalog.services d.objects entry.qualifiedName hsome with ⟨e, he⟩
    rw [he] at hprepare
    rw [Dispatcher.dispatch, hprepare]
    exact ⟨e, rfl⟩

/-! ## Every kind of message -/

/-- Messages of every kind are read as they were sent. A call for the catalog
    is answered, and whatever it is answered with is read as the catalog that
    was scanned. -/
theorem read_what_was_sent :
    (∀ v : Value, Sendable v → ofMsgPack? (toMsgPack v) = some v) ∧
    (∀ t : Ty, Sendable t → ofMsgPack? (toMsgPack t) = some t) ∧
    (∀ a : Argument, Sendable a → ofMsgPack? (toMsgPack a) = some a) ∧
    (∀ call : ProcedureCall, Sendable call → ofMsgPack? (toMsgPack call) = some call) ∧
    (∀ request : Request, Sendable request → ofMsgPack? (toMsgPack request) = some request) ∧
    (∀ result : ProcedureResult, Sendable result →
      ofMsgPack? (toMsgPack result) = some result) ∧
    (∀ response : Response, Sendable response →
      ofMsgPack? (toMsgPack response) = some response) ∧
    (∀ services : Services, Sendable services →
      ofMsgPack? (toMsgPack services) = some services) ∧
    ∀ (decls : List ServiceDecl) (d : Dispatcher), scanWithCore decls = .ok d.catalog →
      Sendable d.catalog.services → ∀ call : Call, call.procedure = "Core.GetServices" →
        (call.arguments = [] → ∃ value, (d.dispatch call).1 = .completed value) ∧
        ∀ value, (d.dispatch call).1 = .completed value →
          ∃ bytes, value = some (.bytes bytes) ∧ ofMsgPack? bytes = some d.catalog.services := by
  refine ⟨fun _ h => h.ofMsgPack?_toMsgPack, fun _ h => h.ofMsgPack?_toMsgPack,
    fun _ h => h.ofMsgPack?_toMsgPack, fun _ h => h.ofMsgPack?_toMsgPack,
    fun _ h => h.ofMsgPack?_toMsgPack, fun _ h => h.ofMsgPack?_toMsgPack,
    fun _ h => h.ofMsgPack?_toMsgPack, fun _ h => h.ofMsgPack?_toMsgPack, ?_⟩
  intro decls d hscan hsendable call hname
  have hanswer := dispatch_getServices hscan hname
  refine ⟨fun hnone => ⟨_, hanswer.1 hnone⟩, fun value hvalue => ?_⟩
  by_cases hnone : call.arguments = []
  · rw [hanswer.1 hnone, Outcome.completed.injEq] at hvalue
    exact ⟨_, hvalue.symm, hsendable.ofMsgPack?_toMsgPack⟩
  · rcases hanswer.2 hnone with ⟨e, he⟩
    rw [he] at hvalue
    exact absurd hvalue (by simp only [reduceCtorEq, not_false_eq_true])

/-- A null result, no result, an error, and numbers at the ends of their
    ranges. -/
def mixedResponse : Response :=
  ⟨[.ok (some .null), .ok none, .err .typeMismatch "expected Int32, got \"twelve\"",
    .ok (some (.map [(.int64 (-0x8000000000000000), .float64 ⟨0x7FF8000000000001⟩),
      (.set [.string "é", .bytes [0, 255]], .object 0xFFFFFFFFFFFFFFFF)]))]⟩

/-- A service with a parameter that is null by default and one that has no
    default. -/
def lookupService : ServiceDecl where
  name := "Lookup"
  procedures :=
    [{ name := "Find"
       parameters := [⟨"of", .optional .int32, some .null⟩, ⟨"limit", .int64, none⟩]
       handler := some (return .done) }]

theorem mixedResponse_read_as_sent :
    Sendable mixedResponse ∧ ofMsgPack? (toMsgPack mixedResponse) = some mixedResponse ∧
    ∃ catalog, scanWithCore [lookupService] = .ok catalog ∧ Sendable catalog.services ∧
      ∃ bytes, (Dispatcher.dispatch { catalog } (Call.bare ⟨1, 1⟩ "Core.GetServices")).1 =
          .completed (some (.bytes bytes)) ∧
        ofMsgPack? bytes = some catalog.services := by
  have hresponse : Sendable mixedResponse := by decide
  have hscan : ∃ catalog, scanWithCore [lookupService] = .ok catalog ∧
      Sendable catalog.services := ⟨_, rfl, by decide +kernel⟩
  rcases read_what_was_sent with ⟨_, _, _, _, _, _, hresponses, _, hcatalogs⟩
  rcases hscan with ⟨catalog, hscan, hsendable⟩
  rcases hcatalogs [lookupService] { catalog } hscan hsendable
    (Call.bare ⟨1, 1⟩ "Core.GetServices") rfl with ⟨hanswered, hread⟩
  rcases hanswered rfl with ⟨value, hvalue⟩
  rcases hread value hvalue with ⟨bytes, rfl, hcatalog⟩
  exact ⟨hresponse, hresponses mixedResponse hresponse, catalog, hscan, hsendable, bytes, hvalue,
    hcatalog⟩

end Switchboard
