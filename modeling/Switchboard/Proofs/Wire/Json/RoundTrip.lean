import Switchboard.Proofs.Wire.Json.Catalog
import Switchboard.Proofs.Wire.Json.Messages

/-!
# There and Back in Text

Writing a message as JSON and reading the text changes nothing, unless the
message has a floating-point number in it. Such a number is written with as few
digits as tell it apart, and which digits those are is not decided here.
Everything else comes back: texts with whatever characters they have, whole
numbers of any sign and width, bytes as the array that they are written as, and
a null value apart from no value.

Two things happen on the way. The text leads back to a tree, though not to the
one that was written, and the message is recognised in that other tree. Where
MsgPack asks for lengths that fit, JSON asks for nothing, since its texts and
arrays end where they are closed.

## Main definitions

* `JsonSendable`: Messages within the limits of the format.

## Theorems

* `JsonSendable.ofJson?_toJson`: A message leads back from its text.
* `json_read_as_written`: The kinds of message.
-/

namespace Switchboard

open Wire

/-- A message that can be sent as JSON. -/
structure JsonSendable {α : Type} [Serial α] (a : α) : Prop where
  /-- The numbers in it have at most 64 bits. -/
  words : (toNode a).Words
  /-- None of them is a floating-point number. -/
  whole : (toNode a).hasReal = false
  /-- Its text is nested no deeper than a reader follows. -/
  shallow : (Json.readBack (toNode a)).height ≤ Json.nesting.room

/-- The limits can be checked before sending. -/
instance {α : Type} [Serial α] (a : α) : Decidable (JsonSendable a) :=
  decidable_of_iff ((toNode a).Words ∧ (toNode a).hasReal = false ∧
      (Json.readBack (toNode a)).height ≤ Json.nesting.room)
    ⟨fun h => ⟨h.1, h.2.1, h.2.2⟩, fun h => ⟨h.words, h.whole, h.shallow⟩⟩

/-- A message is read from its text as itself. -/
theorem JsonSendable.ofJson?_toJson {α : Type} [Serial α] [Layered α] [LawfulSerial α]
    [Json.ReadsBack α] {a : α} (h : JsonSendable a) : ofJson? (toJson a) = some a := by
  have hlegible : Json.Legible (toNode a) :=
    Json.Legible.of_regular (toNode a) (regular_toNode a) h.words (Json.keyed_toNode a) h.whole
  have hwithin : Json.Within Json.nesting (toNode a) := ⟨rfl, h.words, h.shallow⟩
  rw [ofJson?, toJson, Json.read?_print hlegible]
  exact Json.ofNode?_readBack Json.nesting a hwithin

/-- Messages of every kind are read from their texts as they were written. -/
theorem json_read_as_written :
    (∀ v : Value, JsonSendable v → ofJson? (toJson v) = some v) ∧
    (∀ t : Ty, JsonSendable t → ofJson? (toJson t) = some t) ∧
    (∀ a : Argument, JsonSendable a → ofJson? (toJson a) = some a) ∧
    (∀ call : ProcedureCall, JsonSendable call → ofJson? (toJson call) = some call) ∧
    (∀ request : Request, JsonSendable request → ofJson? (toJson request) = some request) ∧
    (∀ result : ProcedureResult, JsonSendable result → ofJson? (toJson result) = some result) ∧
    (∀ response : Response, JsonSendable response →
      ofJson? (toJson response) = some response) ∧
    ∀ services : Services, JsonSendable services → ofJson? (toJson services) = some services :=
  ⟨fun _ h => h.ofJson?_toJson, fun _ h => h.ofJson?_toJson, fun _ h => h.ofJson?_toJson,
    fun _ h => h.ofJson?_toJson, fun _ h => h.ofJson?_toJson, fun _ h => h.ofJson?_toJson,
    fun _ h => h.ofJson?_toJson, fun _ h => h.ofJson?_toJson⟩

/-- A null result, no result, an error with characters that are escaped, and
    numbers at the ends of their ranges. -/
def escapedResponse : Response :=
  ⟨[.ok (some .null), .ok none, .err .missingArgument "no \"x\\y\"\n\u0000\u001f\u007f é 😀",
    .ok (some (.map [(.int64 (-0x8000000000000000), .object 0xFFFFFFFFFFFFFFFF),
      (.tuple [.string "\t", .int32 (-0x80000000)], .list [.bytes [], .bytes [0, 255]])]))]⟩

/-- A catalog with a default that is null and a parameter without one. -/
def lookupCatalog : Services :=
  ⟨[{ name := "Lookup"
      procedures :=
        [{ name := "Find"
           parameters := [⟨"of", .optional (.map .string .float64), some .null⟩,
             ⟨"limit", .enumeration "Lookup" "Limit", none⟩]
           returnType := none
           documentation := ""
           blocking := true }]
      classes := []
      enumerations := [⟨"Limit", [⟨"None", -1, "\\"⟩], ""⟩]
      documentation := "<doc />" }]⟩

theorem escapedResponse_read_as_written :
    JsonSendable escapedResponse ∧ ofJson? (toJson escapedResponse) = some escapedResponse ∧
    JsonSendable lookupCatalog ∧ ofJson? (toJson lookupCatalog) = some lookupCatalog := by
  have hresponse : JsonSendable escapedResponse := by decide
  have hcatalog : JsonSendable lookupCatalog := by decide
  rcases json_read_as_written with ⟨_, _, _, _, _, _, hresponses, hcatalogs⟩
  exact ⟨hresponse, hresponses escapedResponse hresponse, hcatalog,
    hcatalogs lookupCatalog hcatalog⟩

end Switchboard
